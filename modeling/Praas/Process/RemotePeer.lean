import Praas.Process.RemoteIdentity
import Praas.Process.PayloadLengths

/-! # The connection of one sender

A process, the data plane or the control plane has a registered connection, and writes
requests to it. What it writes may arrive in any number of chunks.

* `Since`: what the connection does to the server, as long as nothing is sent;
* `receive_requests`: a chunk, and the calls that the requests which it completes come to;
* `receive_part`, `receive_rest`: the chunks of a single request;
* `registration_read`, `register_part`, `register_rest`: those of the registration of a process;
* `poll_ok`: the connection that the server opens to the control plane;
* `resultHeader_read`: what is read in the header of a result;
* `answer_ok`: a result for the sender is written to its connection.
-/

namespace Praas.Process.Remote

open Message Framing TCPServer

/-- Who a connection belongs to. -/
inductive Sender where
  | dataPlane
  | controlPlane
  | process (name : Str)
deriving DecidableEq

namespace Sender

def type : Sender → RemoteType
  | .dataPlane => .dataPlane
  | .controlPlane => .controlPlane
  | .process _ => .process

def name : Sender → Option Str
  | .process name => some name
  | _ => none

/-- The call that a request comes to. -/
def call (header payload : List Byte) : Sender → Call
  | .dataPlane => .dataplaneMessage header payload
  | .controlPlane => .controlplaneMessage header payload
  | .process name => .remoteMessage header payload name

end Sender

/-- The connection stands where the parser stands, and is that of the sender. -/
structure Reads (s : TCPServer) (t : TcpId) (r : Ref) (d : Sender) (p : Parser Byte) : Prop where
  rep : Rep t r d.type d.name s p
  found : s.resultConnection d.type d.name = some r
  conn : (s.heap r).conn = some t

/-! ## Passes on its connection -/

/-- A call into the controller that names the sender, if any. -/
def Names (d : Sender) : Call → Prop
  | .remoteMessage _ _ processId => d = .process processId
  | .dataplaneMessage .. => d = .dataPlane
  | .controlplaneMessage .. => d = .controlPlane
  | .updateApplication .. => True

/-- The connection is still that of the sender, and nothing was sent since `s₀`. -/
structure Since (s₀ : TCPServer) (t : TcpId) (r : Ref) (d : Sender) (s : TCPServer) : Prop where
  context : (s.tcp t).context = some r
  allocated : r < s.next
  type_eq : (s.heap r).type = d.type
  id_eq : (s.heap r).id = d.name
  conn : (s.heap r).conn = some t
  found : s.resultConnection d.type d.name = some r
  sent : s.sent = s₀.sent
  calls : ∃ ks, s.calls = s₀.calls ++ ks ∧ ∀ q ∈ ks, q.1 = t ∧ Names d q.2

section Passes

variable {s₀ s s' : TCPServer} {t : TcpId} {r : Ref} {d : Sender} {p : Parser Byte}

/-- The tables that a result is looked up in. -/
theorem found_congr (hdata : s'.connectionData = s.connectionData)
    (hplane : s'.dataPlane = s.dataPlane) (hcontrol : s'.controlPlane = s.controlPlane)
    (h : s.resultConnection d.type d.name = some r) :
    s'.resultConnection d.type d.name = some r := by
  rw [← h]
  cases d with
  | dataPlane => exact hplane
  | controlPlane => exact hcontrol
  | process name => exact congrArg (fun data => data name) hdata

theorem Reads.since (h : Reads s t r d p) : Since s t r d s :=
  ⟨h.rep.context, h.rep.allocated, h.rep.type_eq, h.rep.id_eq, h.conn, h.found, rfl,
    [], (List.append_nil _).symm, by simp⟩

/-- One more call. -/
theorem Since.toController (h : Since s₀ t r d s) {k : Call} (hk : Names d k) :
    Since s₀ t r d (s.toController t k) := by
  rcases h.calls with ⟨ks, hks, hall⟩
  refine ⟨h.context, h.allocated, h.type_eq, h.id_eq, h.conn, found_congr rfl rfl rfl h.found,
    h.sent, ks ++ [(t, k)], ?_, ?_⟩
  · rw [toController_calls, hks, List.append_assoc]
  · intro q hq
    rcases List.mem_append.1 hq with hq | hq
    · exact hall q hq
    · obtain rfl := List.mem_singleton.1 hq
      exact ⟨rfl, hk⟩

/-- A `Connection` is replaced by one that is the same sender's. -/
theorem Since.setConn (h : Since s₀ t r d s) {r' : Ref} {c : Connection}
    (hc : c.type = (s.heap r').type ∧ c.id = (s.heap r').id ∧ c.conn = (s.heap r').conn) :
    Since s₀ t r d (s.setConn r' c) := by
  have hfound : (s.setConn r' c).resultConnection d.type d.name = some r :=
    found_congr rfl rfl rfl h.found
  rcases eq_or_ne r r' with rfl | hne
  · refine ⟨h.context, h.allocated, ?_, ?_, ?_, hfound, h.sent, h.calls⟩
    · simpa using hc.1.trans h.type_eq
    · simpa using hc.2.1.trans h.id_eq
    · simpa using hc.2.2.trans h.conn
  · refine ⟨h.context, h.allocated, ?_, ?_, ?_, hfound, h.sent, h.calls⟩
    · simpa [hne] using h.type_eq
    · simpa [hne] using h.id_eq
    · simpa [hne] using h.conn

theorem since_handleAppUpdate (h : Since s₀ t r d s) (m : MessagePtr) :
    Since s₀ t r d (s.handleAppUpdate t m) := by
  have hcalled : Since s₀ t r d (s.toController t (.updateApplication
      (ApplicationUpdate.statusChange m) (ApplicationUpdate.processId m))) :=
    h.toController trivial
  unfold handleAppUpdate
  dsimp only
  split
  · exact hcalled.setConn ⟨rfl, rfl, rfl⟩
  · -- the new `Connection` is another one, under another name
    rename_i hnone
    have hr : r ≠ s.next := Nat.ne_of_lt h.allocated
    refine ⟨hcalled.context, Nat.lt_succ_of_lt h.allocated, ?_, ?_, ?_, ?_, hcalled.sent,
      hcalled.calls⟩
    · simpa [hr] using h.type_eq
    · simpa [hr] using h.id_eq
    · simpa [hr] using h.conn
    · cases d with
      | dataPlane => exact h.found
      | controlPlane => exact h.found
      | process name =>
        have hlisted : s.connectionData name = some r := h.found
        have hname : name ≠ ApplicationUpdate.processId m := by
          rintro rfl
          cases hlisted.symm.trans hnone
        show Function.update s.connectionData _ _ name = some r
        rw [Function.update_of_ne hname, hlisted]

/-- Only what the sender may send is delivered. -/
theorem names_deliver {c : Connection} {payload : List Byte} {k : Call} (htype : c.type = d.type)
    (hid : c.id = d.name)
    (h : deliverRequest c payload = .ok k ∨ deliverRemote c payload = .ok k) : Names d k := by
  unfold deliverRequest deliverRemote idValue at h
  rw [htype, hid] at h
  cases d with
  | dataPlane =>
    rcases h with h | h
    · obtain rfl := Except.ok.inj h
      rfl
    · cases h
  | controlPlane =>
    rcases h with h | h
    · obtain rfl := Except.ok.inj h
      rfl
    · cases h
  | process name =>
    rcases h with h | h
    · obtain rfl := Except.ok.inj h
      rfl
    · obtain rfl := Except.ok.inj h
      rfl

theorem since_act (h : Since s₀ t r d s) (ha : Act t r s s') : Since s₀ t r d s' := by
  cases ha with
  | parse c hc => exact h.setConn ⟨hc.2.1, hc.2.2.1, hc.2.2.2.1⟩
  | retrieve n =>
    exact ⟨by simpa using h.context, h.allocated, h.type_eq, h.id_eq, h.conn,
      found_congr rfl rfl rfl h.found, h.sent, h.calls⟩
  | deliver payload k hk => exact h.toController (names_deliver h.type_eq h.id_eq hk)
  | update m => exact since_handleAppUpdate h m

theorem since_acts (h : Since s₀ t r d s) (ha : Acts t r s s') : Since s₀ t r d s' := by
  induction ha with
  | refl => exact h
  | tail _ hact ih => exact since_act ih hact

theorem since_handleLoop {n : ℕ} (h : Since s₀ t r d s)
    (hrun : TCPServer.handleLoop n s t = .ok s') : Since s₀ t r d s' := by
  induction n generalizing s with
  | zero =>
    obtain rfl := Except.ok.inj hrun
    exact h
  | succ n ih =>
    unfold TCPServer.handleLoop at hrun
    cases honce : s.handleOnce t with
    | error x => simp [honce] at hrun
    | ok q =>
      obtain ⟨s₁, again⟩ := q
      have h₁ := since_acts h (acts_handleOnce h.context honce)
      cases again with
      | false =>
        obtain rfl : s₁ = s' := by simpa [honce] using hrun
        exact h₁
      | true => exact ih h₁ (by simpa [honce] using hrun)

theorem since_receive (h : Reads s t r d p) {chunk : List Byte}
    (hs : s.receive t chunk = .ok s') : Since s t r d s' := by
  have happend : Since s t r d (s.append t chunk) :=
    ⟨by simpa using h.rep.context, h.rep.allocated, h.rep.type_eq, h.rep.id_eq, h.conn,
      found_congr rfl rfl rfl h.found, rfl, [], (List.append_nil _).symm, by simp⟩
  exact since_handleLoop happend hs

end Passes

/-! ## Requests -/

/-- The header of an invocation request. -/
def IsRequest (hd : List Byte) : Prop := ∃ m, MessageParser.parse hd = .ok (.invocationRequest m)

section Requests

variable {s : TCPServer} {t : TcpId} {r : Ref} {d : Sender} {p : Parser Byte}

/-- Everyone can send a request. -/
theorem takes_request {hd : List Byte} (h : IsRequest hd) : Takes d.type d.name hd := by
  rcases h with ⟨m, hm⟩
  unfold Takes
  rw [hm]
  cases d with
  | dataPlane => exact Or.inl rfl
  | controlPlane => exact Or.inr (Or.inl rfl)
  | process name => exact Or.inr (Or.inr rfl)

theorem handedOf_request {hd payload : List Byte} (h : IsRequest hd) :
    handedOf (hd, payload) = [.message hd payload] := by
  rcases h with ⟨m, hm⟩
  unfold handedOf
  simp only [hm]

/-- The call that a message of the sender comes to. -/
theorem eq_call {k : Call} {hd payload : List Byte} (hnames : Names d k)
    (hhanded : k.handed = .message hd payload) : k = d.call hd payload := by
  cases k with
  | remoteMessage msg body processId =>
    obtain ⟨rfl, rfl⟩ := Handed.message.inj hhanded
    obtain rfl : d = .process processId := hnames
    rfl
  | dataplaneMessage msg body =>
    obtain ⟨rfl, rfl⟩ := Handed.message.inj hhanded
    obtain rfl : d = .dataPlane := hnames
    rfl
  | controlplaneMessage msg body =>
    obtain ⟨rfl, rfl⟩ := Handed.message.inj hhanded
    obtain rfl : d = .controlPlane := hnames
    rfl
  | updateApplication => cases hhanded

/-- What was called since is what was handed on since. -/
theorem Since.calls_eq {s' : TCPServer} (h : Since s t r d s') {ms : List (List Byte × List Byte)}
    (hhanded : s'.handed = s.handed ++ ms.map fun m => (t, .message m.1 m.2)) :
    s'.calls = s.calls ++ ms.map fun m => (t, d.call m.1 m.2) := by
  rcases h.calls with ⟨ks, hks, hall⟩
  unfold handed at hhanded
  rw [hks, List.map_append] at hhanded
  have hmap := List.append_cancel_left hhanded
  rw [hks]
  congr 1
  clear hks hhanded
  induction ks generalizing ms with
  | nil =>
    obtain rfl : ms = [] := List.map_eq_nil_iff.1 hmap.symm
    rfl
  | cons k ks ih =>
    cases ms with
    | nil => cases hmap
    | cons m ms =>
      rcases List.cons.inj hmap with ⟨hhead, htail⟩
      rcases hall k List.mem_cons_self with ⟨ht, hnames⟩
      have hcall := eq_call hnames (congrArg Prod.snd hhead)
      rw [List.map_cons, ← ih (fun q hq => hall q (List.mem_cons_of_mem _ hq)) htail, ← hcall, ← ht]

/-- A chunk arrives: the requests that it completes are called, the others are still owed. -/
theorem receive_requests (h : Reads s t r d p) {todo : List (Frame format)} {c rest : List Byte}
    (howes : Owes (c ++ rest) p todo)
    (hall : ∀ f ∈ todo, WellFormed f.header f.payload ∧ IsRequest f.header) :
    ∃ s' done todo', s.receive t c = .ok s' ∧ Reads s' t r d (call format false p c).1 ∧
      todo = done ++ todo' ∧ (call format false p c).2 = done.map Frame.parts ∧
      Owes rest (call format false p c).1 todo' ∧ s'.sent = s.sent ∧
      s'.calls = s.calls ++ done.map fun f => (t, d.call f.header f.payload) := by
  rcases owes_call false howes with ⟨done, todo', rfl, hdone, howes'⟩
  rcases receive_simulates s p c rest _ howes (fun f hf => (hall f hf).1) h.rep with
    ⟨s', hs', hrep, hhanded, -⟩ | ⟨x, -, g, hg, hrefused⟩
  · have hsince := since_receive h hs'
    refine ⟨s', done, todo', hs', ⟨hrep, hsince.found, hsince.conn⟩, rfl, hdone, howes',
      hsince.sent, ?_⟩
    have hmessages : s'.handed = s.handed ++
        (done.map Frame.parts).map fun m => (t, .message m.1 m.2) := by
      rw [hhanded, hdone, List.map_eq_flatMap (l := done.map Frame.parts)]
      refine congrArg _ (List.flatMap_congr fun q hq => ?_)
      rcases List.mem_map.1 hq with ⟨f, hf, rfl⟩
      have hrequest := (hall f (List.mem_append_left _ hf)).2
      exact congrArg (List.map fun x => (t, x)) (handedOf_request hrequest)
    rw [hsince.calls_eq hmessages, List.map_map]
    rfl
  · exact absurd (takes_request (hall g hg).2) hrefused

/-- A chunk that does not end a single request. -/
theorem receive_part (h : Reads s t r d p) {f : Frame format} {c rest : List Byte}
    (howes : Owes (c ++ rest) p [f]) (hwf : WellFormed f.header f.payload)
    (hrequest : IsRequest f.header) (hrest : rest ≠ []) :
    ∃ s' p', s.receive t c = .ok s' ∧ Reads s' t r d p' ∧ Owes rest p' [f] ∧
      s'.sent = s.sent ∧ s'.calls = s.calls := by
  rcases receive_requests h howes (List.forall_mem_singleton.2 ⟨hwf, hrequest⟩) with
    ⟨s', done, todo', hs', hreads, -, hdone, -, hsent, hcalls⟩
  rcases call_part false howes hrest with ⟨hnone, howes'⟩
  obtain rfl : done = [] := List.map_eq_nil_iff.1 (hdone.symm.trans hnone)
  exact ⟨s', _, hs', hreads, howes', hsent, hcalls.trans (List.append_nil _)⟩

/-- The chunk that ends it. -/
theorem receive_rest (h : Reads s t r d p) {f : Frame format} {c : List Byte}
    (howes : Owes c p [f]) (hwf : WellFormed f.header f.payload) (hrequest : IsRequest f.header) :
    ∃ s', s.receive t c = .ok s' ∧ Reads s' t r d Parser.idle ∧ s'.sent = s.sent ∧
      s'.calls = s.calls ++ [(t, d.call f.header f.payload)] := by
  have howes' : Owes (c ++ []) p [f] := by rwa [List.append_nil]
  rcases receive_requests h howes' (List.forall_mem_singleton.2 ⟨hwf, hrequest⟩) with
    ⟨s', done, todo', hs', hreads, htodo, hdone, -, hsent, hcalls⟩
  rw [call_whole false howes] at hreads hdone
  have hlength : done.length = 1 := by simpa using (congrArg List.length hdone).symm
  obtain ⟨g, rfl⟩ := List.length_eq_one_iff.1 hlength
  obtain ⟨rfl, -⟩ := List.cons.inj htodo
  exact ⟨s', hs', hreads, hsent, hcalls⟩

end Requests

/-! ## The registration -/

/-- What is read in the header of a registration. -/
theorem registration_read {name : Str} (hname : name.length ≤ NAME_LENGTH ∧ (0 : Byte) ∉ name) :
    ∃ m, ProcessConnection.setProcessName (.new .processConnection) (.ofStr name) = .ok m ∧
      MessageParser.parse m.buf = .ok (.processConnection m.buf) ∧
      ProcessConnection.processName m.buf = name := by
  let calls : List (Message.format .processConnection).Call := [⟨.processName, StringView.ofStr name⟩]
  have haccepted : ∀ call ∈ calls, call.Accepted :=
    List.forall_mem_singleton.2 (Header.Kind.accepts_ofStr hname.1 hname.2)
  rcases set_new (by decide) haccepted with ⟨m, hm, hparse, hget⟩
  refine ⟨m, ?_, hparse, (hget .processName).trans (Header.Kind.chars_ofStr _)⟩
  simp only [calls, List.foldlM_cons, List.foldlM_nil, bind_pure] at hm
  exact hm

section Registration

variable {s : TCPServer} {t : TcpId}

/-- Without a whole header a connection that has not registered waits. -/
theorem register_part (hcontext : (s.tcp t).context = none) {c : List Byte}
    (hshort : ((s.tcp t).buffer ++ c).length < BUF_SIZE) :
    s.receive t c = .ok (s.append t c) := by
  have honce : (s.append t c).handleOnce t = .ok (s.append t c, false) := by
    unfold handleOnce
    rw [append_tcp, Function.update_self, hcontext]
    dsimp only
    rw [if_pos hshort]
  show handleLoop (((s.append t c).tcp t).buffer.length + 1) (s.append t c) t = _
  unfold handleLoop
  rw [honce]

/-- A new peer registers, and its registration is confirmed. -/
theorem register_rest (hcontext : (s.tcp t).context = none) {c : List Byte} {m : MessageData}
    (hbuffer : (s.tcp t).buffer ++ c = m.buf)
    (hparse : MessageParser.parse m.buf = .ok (.processConnection m.buf))
    (hdata : ProcessConnection.processName m.buf ≠ DATAPLANE_ID)
    (hcontrol : ProcessConnection.processName m.buf ≠ CONTROLPLANE_ID)
    (hnew : s.connectionData (ProcessConnection.processName m.buf) = none) {response : MessageData}
    (hresponse : ProcessConnection.setProcessName (.new .processConnection) (.ofStr CORRECT) =
      .ok response) :
    ∃ s', s.receive t c = .ok s' ∧
      Reads s' t s.next (.process (ProcessConnection.processName m.buf)) Parser.idle ∧
      s'.sent = s.sent ++ [(t, response.buf)] ∧ s'.calls = s.calls := by
  let name := ProcessConnection.processName m.buf
  let s₁ : TCPServer :=
    (((s.append t c).emplace name (registered name t)).setContext t s.next).send t response.buf
  have hregistered : registered name t =
      { status := .connected, type := .process, id := some name, conn := some t } := by
    unfold registered
    rw [if_neg hdata, if_neg hcontrol]
  have hconnection : (s.append t c).handleConnection t m.buf = .ok s₁ := by
    unfold handleConnection
    simp only [append_connectionData, hnew, hresponse]
    show Except.ok ((((((s.append t c).emplace name (registered name t)).setPlane name
      s.next).setContext t s.next).send t response.buf)) = _
    unfold setPlane
    rw [if_neg hdata, if_neg hcontrol]
  have hlength : (s₁.tcp t).buffer = m.buf := by simpa [s₁] using hbuffer
  have hrest : ((s₁.retrieve t BUF_SIZE).tcp t).buffer = [] := by
    rw [retrieve_tcp, Function.update_self, hlength]
    exact List.drop_of_length_le m.length_buf.le
  have honce : (s.append t c).handleOnce t = .ok (s₁.retrieve t BUF_SIZE, false) := by
    have hbuf : ((s.append t c).tcp t).buffer = m.buf := by simpa using hbuffer
    have htake : m.buf.take BUF_SIZE = m.buf := List.take_of_length_le m.length_buf.le
    unfold handleOnce
    rw [hbuf, htake, m.length_buf]
    simp only [append_tcp, Function.update_self, hcontext, lt_irrefl, if_false, hparse,
      hconnection, hrest, List.length_nil]
    rfl
  refine ⟨s₁.retrieve t BUF_SIZE, ?_, ⟨⟨?_, ?_, ?_, ?_, hrest, ?_, ?_⟩, ?_, ?_⟩, rfl, rfl⟩
  · show handleLoop (((s.append t c).tcp t).buffer.length + 1) (s.append t c) t = _
    unfold handleLoop
    rw [honce]
  · simp [s₁]
  · exact Nat.lt_succ_self _
  · simp [s₁, hregistered, Sender.type]
  · simp [s₁, hregistered, name, Sender.name]
  · intro _
    simp [s₁, hregistered]
  · intro hd hwaiting
    cases hwaiting
  · show s₁.connectionData name = some s.next
    simp [s₁]
  · simp [s₁, hregistered]

/-- A server that starts connects to the control plane, and registers. -/
theorem poll_ok {id : Str} {m : MessageData}
    (hm : ProcessConnection.setProcessName (.new .processConnection) (.ofStr id) = .ok m) :
    ∃ s₁ s₂, (TCPServer.new id).poll = .ok s₁ ∧
      s₁.connected (TCPServer.new id).next t = .ok s₂ ∧
      Reads s₂ t (TCPServer.new id).next .controlPlane Parser.idle ∧ s₂.sent = [(t, m.buf)] ∧
      s₂.calls = [] := by
  let c : Connection :=
    { status := .connecting, type := .controlPlane, id := none, client := some .poll }
  let s₁ : TCPServer :=
    { (TCPServer.new id).emplace CONTROLPLANE_KEY c with controlPlane := some 0 }
  let s₂ : TCPServer := ((s₁.openTcp t (.client 0)).send t m.buf).setContext t 0
  refine ⟨s₁, s₂.setConn 0 { s₂.heap 0 with conn := some t }, rfl, ?_, ?_, ?_, ?_⟩
  · unfold connected
    have hclient : (s₁.heap (TCPServer.new id).next).client = some .poll := by
      simp [s₁, c, TCPServer.new]
    have hid : s₁.processId = id := rfl
    rw [hclient, hid, hm]
    rfl
  · refine ⟨⟨?_, ?_, ?_, ?_, ?_, ?_, ?_⟩, ?_, ?_⟩
    · simp [s₂, TCPServer.new]
    · simp [s₂, s₁, TCPServer.new]
    · simp [s₂, s₁, c, TCPServer.new, Sender.type]
    · simp [s₂, s₁, c, TCPServer.new, Sender.name]
    · simp [s₂, s₁, TCPServer.new, Parser.idle]
    · intro _
      simp [s₂, s₁, c, TCPServer.new]
    · intro hd hwaiting
      cases hwaiting
    · rfl
    · simp [TCPServer.new]
  · rfl
  · rfl

end Registration

/-! ## The answer -/

/-- The header of a result, with whatever id. -/
theorem resultHeader_read {id : Str} {code : Int} {payload : List Byte}
    (hid : id.length ≤ ID_LENGTH ∧ (0 : Byte) ∉ id) (hcode : -2 ^ 31 ≤ code ∧ code < 2 ^ 31)
    (hsmall : payload.length < 2 ^ 31) :
    ∃ m, resultHeader (.ofStr id) code payload = .ok m ∧
      MessageParser.parse m.buf = .ok (.invocationResult m.buf) ∧
      InvocationResult.invocationId m.buf = id ∧ InvocationResult.returnCode m.buf = code ∧
      totalLength m.buf = payload.length := by
  let calls : List (Message.format .invocationResult).Call :=
    [⟨.resultId, StringView.ofStr id⟩, ⟨.returnCode, code⟩,
      ⟨.totalLength, toInt32 payload.length⟩]
  have hlength : toInt32 payload.length = payload.length := toInt32_of_lt hsmall
  have haccepted : ∀ call ∈ calls, call.Accepted := by
    intro call hcall
    simp only [calls, List.mem_cons, List.not_mem_nil, or_false] at hcall
    rcases hcall with rfl | rfl | rfl
    · exact Header.Kind.accepts_ofStr hid.1 hid.2
    · exact hcode
    · exact ⟨toInt32_ge _, toInt32_lt _⟩
  rcases set_new (by decide) haccepted with ⟨m, hm, hparse, hget⟩
  refine ⟨m, ?_, hparse, (hget .resultId).trans (Header.Kind.chars_ofStr _), hget .returnCode,
    (hget .totalLength).trans hlength⟩
  simp only [calls, List.foldlM_cons, List.foldlM_nil, bind_pure] at hm
  exact hm

/-- What was written to a TCP connection. -/
def written (t : TcpId) (sends : List (TcpId × List Byte)) : List Byte :=
  ((sends.filter fun w => w.1 = t).map Prod.snd).flatten

/-- A result is written to the sender; its connection is as it was. -/
theorem answer_ok {s : TCPServer} {t : TcpId} {r : Ref} {d : Sender} {p : Parser Byte}
    (h : Reads s t r d p) {invocationId : StringView} {code : Int} {payload : List Byte}
    {hd : MessageData} (hhd : resultHeader invocationId code payload = .ok hd) :
    ∃ s', s.invocationResult d.type d.name invocationId code payload = .ok s' ∧
      Reads s' t r d p ∧ s'.calls = s.calls ∧ (s'.tcp t).buffer = (s.tcp t).buffer ∧
      ∃ sends, s'.sent = s.sent ++ sends ∧ written t sends = hd.buf ++ payload := by
  rw [PayloadLengths.invocationResult_eq h.found h.conn, hhd]
  have hsend : ∀ bs, Reads (s.send t bs) t r d p := fun bs =>
    ⟨⟨h.rep.context, h.rep.allocated, h.rep.type_eq, h.rep.id_eq, h.rep.buffer, h.rep.fresh,
      h.rep.waiting⟩, found_congr rfl rfl rfl h.found, h.conn⟩
  have hsends : ∀ bs bs', Reads ((s.send t bs).send t bs') t r d p := fun bs bs' =>
    ⟨⟨h.rep.context, h.rep.allocated, h.rep.type_eq, h.rep.id_eq, h.rep.buffer, h.rep.fresh,
      h.rep.waiting⟩, found_congr rfl rfl rfl h.found, h.conn⟩
  show ∃ s', Except.ok (if 0 < payload.length then (s.send t hd.buf).send t payload
    else s.send t hd.buf) = .ok s' ∧ _
  by_cases hlen : 0 < payload.length
  · rw [if_pos hlen]
    refine ⟨_, rfl, hsends _ _, rfl, rfl, [(t, hd.buf), (t, payload)], ?_, ?_⟩
    · simp
    · simp [written]
  · obtain rfl : payload = [] := List.eq_nil_of_length_eq_zero (Nat.eq_zero_of_not_pos hlen)
    rw [if_neg hlen]
    refine ⟨_, rfl, hsend _, rfl, rfl, [(t, hd.buf)], rfl, ?_⟩
    simp [written]

end Praas.Process.Remote
