import Praas.Lib.Lts
import Praas.Process.Remote

/-! # Whose messages a connection carries

`peer t` is the registered name of the peer at the other end of the TCP
connection `t`. A run is honest if the peers that connect to the server register
under their own names, and the connections the server opens reach the processes
they were opened for.

* `Act`: the elementary changes a registered connection makes to the server.
* `Inv`: every entry of the name table stands for one peer, and contexts,
  connections, plane pointers and calls agree with it.
* `inv_step`: every step that handles no registration on a connection opened by
  `_connect`, and none under the key of the control plane, keeps it.
* `connections_keep_identity`: in every run of such steps, connections of
  different peers share no parse state, every message is attributed to the peer
  it came from, and the result of a request goes to the peer that sent it.
-/

namespace Praas.Process.Remote

open Message TCPServer

/-! ## What one pass of the message callback can do -/

/-- What the parser keeps in a connection. -/
def Connection.parseState (c : Connection) : ℕ × List Byte × MessageVariants :=
  (c.bytesToRead, c.curMsg, c.parsedMsg)

/-- The connections agree on everything but the state of the parser. -/
def SameButParse (c c' : Connection) : Prop :=
  c'.status = c.status ∧ c'.type = c.type ∧ c'.id = c.id ∧ c'.conn = c.conn ∧
    c'.ipAddress = c.ipAddress ∧ c'.port = c.port ∧ c'.client = c.client ∧
    c'.pendingMsgs = c.pendingMsgs

/-- The elementary changes of a pass on `t`, whose connection is `r`. -/
inductive Act (t : TcpId) (r : Ref) : TCPServer → TCPServer → Prop where
  | parse (s : TCPServer) (c : Connection) (h : SameButParse (s.heap r) c) :
      Act t r s (s.setConn r c)
  | retrieve (s : TCPServer) (n : ℕ) : Act t r s (s.retrieve t n)
  | deliver (s : TCPServer) (payload : List Byte) (k : Call)
      (h : deliverRequest (s.heap r) payload = .ok k ∨ deliverRemote (s.heap r) payload = .ok k) :
      Act t r s (s.toController t k)
  | update (s : TCPServer) (m : MessagePtr) : Act t r s (s.handleAppUpdate t m)

variable {t : TcpId} {r : Ref}

abbrev Acts (t : TcpId) (r : Ref) : TCPServer → TCPServer → Prop :=
  Relation.ReflTransGen (Act t r)

theorem acts_setBytesToRead (s : TCPServer) (n : ℕ) :
    Acts t r s (s.setConn r ((s.heap r).setBytesToRead n)) :=
  .single (.parse s _ ⟨rfl, rfl, rfl, rfl, rfl, rfl, rfl, rfl⟩)

theorem acts_startPayload (s : TCPServer) (len : ℕ) : Acts t r s (s.startPayload t r len) := by
  unfold startPayload
  split
  · exact (acts_setBytesToRead s len).tail (.retrieve _ _)
  · exact .refl

theorem acts_finishPayload {s s' : TCPServer} {n : ℕ} {consumed : Bool}
    {deliver : Connection → List Byte → Except Fault Call}
    (hd : deliver = deliverRequest ∨ deliver = deliverRemote)
    (h : s.finishPayload t r n deliver = .ok (s', consumed)) : Acts t r s s' := by
  unfold finishPayload at h
  split at h
  · cases hk : deliver (s.heap r) ((s.tcp t).buffer.take n) with
    | error x => simp [hk] at h
    | ok k =>
      simp only [hk, Except.ok.injEq, Prod.mk.injEq] at h
      obtain ⟨rfl, -⟩ := h
      have hget : Acts t r s (s.retrieve t n) := .single (.retrieve s n)
      have hcall : Act t r (s.retrieve t n) ((s.retrieve t n).toController t k) := by
        refine .deliver _ ((s.tcp t).buffer.take n) k ?_
        rcases hd with rfl | rfl
        · exact Or.inl hk
        · exact Or.inr hk
      exact (hget.tail hcall).trans (acts_setBytesToRead ((s.retrieve t n).toController t k) 0)
  · obtain ⟨rfl, -⟩ : s = s' ∧ false = consumed := by simpa using h
    exact .refl

theorem acts_handleInvocation {s s' : TCPServer} {m : MessagePtr} {consumed : Bool}
    (h : s.handleInvocation t r m = .ok (s', consumed)) : Acts t r s s' :=
  (acts_startPayload s _).trans (acts_finishPayload (Or.inl rfl) h)

theorem acts_handleInvocationResult {s s' : TCPServer} {m : MessagePtr} {consumed : Bool}
    (h : s.handleInvocationResult t r m = .ok (s', consumed)) : Acts t r s s' :=
  (acts_startPayload s _).trans (acts_finishPayload (Or.inr rfl) h)

theorem acts_handlePutMessage {s s' : TCPServer} {m : MessagePtr} {consumed : Bool}
    (h : s.handlePutMessage t r m = .ok (s', consumed)) : Acts t r s s' :=
  (acts_startPayload s _).trans (acts_finishPayload (Or.inr rfl) h)

theorem acts_resume {s s' : TCPServer} {consumed : Bool}
    (h : s.resume t r = .ok (s', consumed)) : Acts t r s s' := by
  unfold resume at h
  split at h
  · exact acts_handleInvocation h
  · exact acts_handlePutMessage h
  · exact acts_handleInvocationResult h
  · obtain ⟨rfl, -⟩ : s = s' ∧ false = consumed := by simpa using h
    exact .refl

theorem acts_dispatch {s s' : TCPServer} {consumed : Bool}
    (h : s.dispatch t r = .ok (s', consumed)) : Acts t r s s' := by
  unfold dispatch at h
  split at h
  · exact acts_handleInvocation h
  · exact acts_handleInvocationResult h
  · exact acts_handlePutMessage h
  · obtain ⟨rfl, -⟩ : s.retrieve t BUF_SIZE = s' ∧ true = consumed := by simpa using h
    exact .single (.retrieve s _)
  · rename_i m _
    obtain ⟨rfl, -⟩ : (s.handleAppUpdate t m).retrieve t BUF_SIZE = s' ∧ true = consumed := by
      simpa using h
    exact (Relation.ReflTransGen.single (.update s m)).tail (.retrieve _ _)
  · obtain ⟨rfl, -⟩ : s.retrieve t BUF_SIZE = s' ∧ true = consumed := by simpa using h
    exact .single (.retrieve s _)

/-- A pass on a registered connection is a sequence of elementary changes. -/
theorem acts_handleOnce {s s' : TCPServer} {again : Bool} (hctx : (s.tcp t).context = some r)
    (h : s.handleOnce t = .ok (s', again)) : Acts t r s s' := by
  unfold handleOnce at h
  rw [hctx] at h
  simp only at h
  split at h
  · split at h
    · obtain ⟨rfl, -⟩ : s = s' ∧ false = again := by simpa using h
      exact .refl
    · cases hres : s.resume t r with
      | error x => simp [hres, Except.map] at h
      | ok q =>
        obtain ⟨rfl, -⟩ : q.1 = s' ∧ false = again := by simpa [hres, Except.map] using h
        exact acts_resume hres
  · split at h
    · obtain ⟨rfl, -⟩ : s = s' ∧ false = again := by simpa using h
      exact .refl
    · -- the header is kept in the record, then its handler is called
      split at h
      · cases h
      · rename_i v _
        generalize hset : s.setConn r ((s.heap r).setMsg ((s.tcp t).buffer.take BUF_SIZE) v) = s₁
          at h
        have hmsg : Acts t r s s₁ := by
          rw [← hset]
          exact .single (.parse s _ ⟨rfl, rfl, rfl, rfl, rfl, rfl, rfl, rfl⟩)
        cases hdisp : s₁.dispatch t r with
        | error x => simp [hdisp, Except.map] at h
        | ok q =>
          have hq : q.1 = s' := by
            rw [hdisp] at h
            exact congrArg Prod.fst (Except.ok.inj h)
          rw [← hq]
          exact hmsg.trans (acts_dispatch hdisp)

/-- A pass on a connection that is not registered yet. -/
theorem handleOnce_unregistered {s s' : TCPServer} {again : Bool}
    (hctx : (s.tcp t).context = none) (h : s.handleOnce t = .ok (s', again)) :
    (s' = s ∧ again = false) ∨
    (BUF_SIZE ≤ (s.tcp t).buffer.length ∧ s' = s.retrieve t BUF_SIZE ∧
      ∃ v, MessageParser.parse ((s.tcp t).buffer.take BUF_SIZE) = .ok v ∧
        ∀ m, v ≠ .processConnection m) ∨
    (BUF_SIZE ≤ (s.tcp t).buffer.length ∧ ∃ m s₁,
      MessageParser.parse ((s.tcp t).buffer.take BUF_SIZE) = .ok (.processConnection m) ∧
      s.handleConnection t m = .ok s₁ ∧ s' = s₁.retrieve t BUF_SIZE) := by
  unfold handleOnce at h
  rw [hctx] at h
  simp only at h
  split at h
  · obtain ⟨rfl, rfl⟩ : s = s' ∧ false = again := by simpa using h
    exact Or.inl ⟨rfl, rfl⟩
  · rename_i hlen
    have hlen' : BUF_SIZE ≤ (s.tcp t).buffer.length := by omega
    split at h
    · cases h
    · rename_i m hm
      cases hcon : s.handleConnection t m with
      | error x => simp [hcon] at h
      | ok s₁ =>
        have hs : s₁.retrieve t BUF_SIZE = s' := by
          rw [hcon] at h
          exact congrArg Prod.fst (Except.ok.inj h)
        exact Or.inr (Or.inr ⟨hlen', m, s₁, hm, hcon, hs.symm⟩)
    · rename_i v hv hne
      have hs : s.retrieve t BUF_SIZE = s' := congrArg Prod.fst (Except.ok.inj h)
      exact Or.inr (Or.inl ⟨hlen', hs.symm, v, hne, fun m hm => hv m (hm ▸ rfl)⟩)

/-! ## The invariant -/

/-- The peer that the table entry `k` stands for: the process of that name, but
the control plane if the entry is the one made by `poll`. -/
def peerOf (k : Str) (type : RemoteType) : Str :=
  if k = CONTROLPLANE_KEY ∧ type = .controlPlane then CONTROLPLANE_ID else k

/-- What a connection stored under the name `k` may look like. -/
structure EntryOk (peer : TcpId → Str) (k : Str) (c : Connection) : Prop where
  id_eq : ∀ i, c.id = some i → i = k
  data : c.type = .dataPlane → k = DATAPLANE_ID
  control : c.type = .controlPlane → (k = CONTROLPLANE_ID ∨ k = CONTROLPLANE_KEY) ∧ c.id = none
  conn : ∀ t, c.conn = some t → peer t = peerOf k c.type
  client : c.client = some .poll → k = CONTROLPLANE_KEY ∧ c.type = .controlPlane

/-- The call for bytes from `q.1` names the peer at its other end, by the name
of an entry that stands for it and has a connection. -/
def CallOk (peer : TcpId → Str) (s : TCPServer) (q : TcpId × Call) : Prop :=
  match q.2 with
  | .remoteMessage _ _ processId => processId = peer q.1 ∧
    ∃ r, s.connectionData processId = some r ∧
      peerOf processId (s.heap r).type = processId ∧ (s.heap r).conn.isSome
  | .dataplaneMessage _ _ => peer q.1 = DATAPLANE_ID ∧
    ∃ r, s.dataPlane = some r ∧ (s.heap r).conn.isSome
  | .controlplaneMessage _ _ => peer q.1 = CONTROLPLANE_ID
  | .updateApplication _ _ => True

structure Inv (peer : TcpId → Str) (s : TCPServer) : Prop where
  entry : ∀ k r, s.connectionData k = some r → r < s.next ∧ EntryOk peer k (s.heap r)
  inj : ∀ k k' r, s.connectionData k = some r → s.connectionData k' = some r → k = k'
  context : ∀ t r, (s.tcp t).context = some r →
    ∃ k, s.connectionData k = some r ∧ peer t = peerOf k (s.heap r).type ∧
      (s.heap r).conn.isSome ∧ ((s.heap r).type = .dataPlane → s.dataPlane = some r)
  dataPlane : ∀ r, s.dataPlane = some r → s.connectionData DATAPLANE_ID = some r
  controlPlane : ∀ r, s.controlPlane = some r →
    ∃ k, s.connectionData k = some r ∧ peerOf k (s.heap r).type = CONTROLPLANE_ID
  client : ∀ r c, (s.heap r).client = some c → ∃ k, s.connectionData k = some r
  calls : ∀ q ∈ s.calls, CallOk peer s q

variable {peer : TcpId → Str}

/-- An entry stays where it is, of the type it is and with a connection. -/
def Stays (s s' : TCPServer) (k : Str) (r : Ref) : Prop :=
  s'.connectionData k = some r ∧ (s'.heap r).type = (s.heap r).type ∧
    ((s.heap r).conn.isSome → (s'.heap r).conn.isSome)

/-- Entries and the data-plane pointer stay, so calls stay well attributed. -/
theorem callOk_mono {s s' : TCPServer} {q : TcpId × Call} (hinv : Inv peer s)
    (hkeep : ∀ k r, s.connectionData k = some r → Stays s s' k r)
    (hplane : ∀ r, s.dataPlane = some r → s'.dataPlane = some r)
    (h : CallOk peer s q) : CallOk peer s' q := by
  obtain ⟨t, k⟩ := q
  cases k with
  | remoteMessage msg payload processId =>
    obtain ⟨hp, r, hr, hself, hconn⟩ := h
    obtain ⟨hr', hty, hconn'⟩ := hkeep processId r hr
    exact ⟨hp, r, hr', by rw [hty]; exact hself, hconn' hconn⟩
  | dataplaneMessage msg payload =>
    obtain ⟨hp, r, hr, hconn⟩ := h
    exact ⟨hp, r, hplane r hr, (hkeep _ r (hinv.dataPlane r hr)).2.2 hconn⟩
  | _ => exact h

theorem inv_new (own : Str) : Inv peer (TCPServer.new own) := by
  constructor <;> simp [TCPServer.new]

/-- Changes outside the heap, the name table and the contexts. -/
theorem inv_congr {s s' : TCPServer} (h : Inv peer s) (hheap : s'.heap = s.heap)
    (hnext : s'.next = s.next) (hdata : s'.connectionData = s.connectionData)
    (hd : s'.dataPlane = s.dataPlane) (hc : s'.controlPlane = s.controlPlane)
    (hctx : ∀ t, (s'.tcp t).context = (s.tcp t).context) (hcalls : s'.calls = s.calls) :
    Inv peer s' := by
  refine ⟨?_, ?_, ?_, ?_, ?_, ?_, ?_⟩
  · rw [hheap, hnext, hdata]
    exact h.entry
  · rw [hdata]
    exact h.inj
  · intro t r ht
    rw [hctx] at ht
    rw [hdata, hheap, hd]
    exact h.context t r ht
  · rw [hd, hdata]
    exact h.dataPlane
  · rw [hc, hdata, hheap]
    exact h.controlPlane
  · rw [hdata, hheap]
    exact h.client
  · intro q hq
    rw [hcalls] at hq
    refine callOk_mono h (fun k r hk => ?_) (fun r hr => by rw [hd]; exact hr) (h.calls q hq)
    exact ⟨by rw [hdata]; exact hk, by rw [hheap], by rw [hheap]; exact id⟩

theorem inv_retrieve {s : TCPServer} (t : TcpId) (n : ℕ) (h : Inv peer s) :
    Inv peer (s.retrieve t n) :=
  inv_congr h rfl rfl rfl rfl rfl (tcp_field Tcp.context rfl rfl) rfl

theorem inv_append {s : TCPServer} (t : TcpId) (bs : List Byte) (h : Inv peer s) :
    Inv peer (s.append t bs) :=
  inv_congr h rfl rfl rfl rfl rfl (tcp_field Tcp.context rfl rfl) rfl

theorem inv_openTcp {s : TCPServer} (t : TcpId) (o : Origin) (h : Inv peer s) :
    Inv peer (s.openTcp t o) :=
  inv_congr h rfl rfl rfl rfl rfl (tcp_field Tcp.context rfl rfl) rfl

theorem inv_send {s : TCPServer} (t : TcpId) (bs : List Byte) (h : Inv peer s) :
    Inv peer (s.send t bs) :=
  inv_congr h rfl rfl rfl rfl rfl (fun _ => rfl) rfl

theorem inv_toController {s : TCPServer} {t : TcpId} {k : Call} (h : Inv peer s)
    (hk : CallOk peer s (t, k)) : Inv peer (s.toController t k) := by
  refine ⟨h.entry, h.inj, h.context, h.dataPlane, h.controlPlane, h.client, ?_⟩
  intro q hq
  rcases List.mem_append.1 hq with hq | hq
  · exact h.calls q hq
  · obtain rfl : q = (t, k) := by simpa using hq
    exact hk

/-- Writing through the pointer of an entry, its type left alone and a connection
not taken from it. -/
theorem inv_setConn {s : TCPServer} {k : Str} {r : Ref} {c : Connection} (h : Inv peer s)
    (hk : s.connectionData k = some r) (htype : c.type = (s.heap r).type)
    (hsome : (s.heap r).conn.isSome → c.conn.isSome)
    (hc : EntryOk peer k c) : Inv peer (s.setConn r c) := by
  -- records keep their types, and those with a connection keep one
  have htypes : ∀ r', ((s.setConn r c).heap r').type = (s.heap r').type := by
    intro r'
    by_cases hr : r' = r
    · subst hr
      simpa using htype
    · simp [hr]
  have hconns : ∀ r', (s.heap r').conn.isSome → ((s.setConn r c).heap r').conn.isSome := by
    intro r' hr'
    by_cases hr : r' = r
    · subst hr
      simpa using hsome hr'
    · simpa [hr] using hr'
  refine ⟨?_, h.inj, ?_, h.dataPlane, ?_, ?_, fun q hq => callOk_mono h
    (fun k' r' hk' => ⟨hk', htypes r', hconns r'⟩) (fun _ hr => hr) (h.calls q hq)⟩
  · intro k' r' hk'
    refine ⟨(h.entry k' r' hk').1, ?_⟩
    by_cases hr : r' = r
    · subst hr
      obtain rfl := h.inj k k' r' hk hk'
      simpa using hc
    · simpa [hr] using (h.entry k' r' hk').2
  · intro t r' ht
    obtain ⟨k', hk', hp, hconn, hplane⟩ := h.context t r' ht
    exact ⟨k', hk', by rw [htypes]; exact hp, hconns r' hconn, by rw [htypes]; exact hplane⟩
  · intro r' hr'
    rw [htypes]
    exact h.controlPlane r' hr'
  · intro r' x hx
    by_cases hr : r' = r
    · subst hr
      exact ⟨k, hk⟩
    · exact h.client r' x (by simpa [hr] using hx)

/-- A new entry under a name that was free. -/
theorem inv_emplace {s : TCPServer} {k : Str} {c : Connection} (h : Inv peer s)
    (hk : s.connectionData k = none) (hc : EntryOk peer k c) : Inv peer (s.emplace k c) := by
  -- the new record is not one that an entry refers to
  have hold : ∀ k' r, s.connectionData k' = some r →
      (s.emplace k c).connectionData k' = some r ∧ (s.emplace k c).heap r = s.heap r := by
    intro k' r hr
    have hne : k' ≠ k := by
      rintro rfl
      rw [hk] at hr
      cases hr
    have hlt : r ≠ s.next := Nat.ne_of_lt (h.entry k' r hr).1
    exact ⟨by simpa [hne] using hr, by simp [hlt]⟩
  have hcases : ∀ k' r, (s.emplace k c).connectionData k' = some r →
      (k' = k ∧ r = s.next) ∨ s.connectionData k' = some r := by
    intro k' r hr
    by_cases hk' : k' = k
    · subst hk'
      exact Or.inl ⟨rfl, by simpa using hr.symm⟩
    · exact Or.inr (by simpa [hk'] using hr)
  have hstays : ∀ k' r, s.connectionData k' = some r → Stays s (s.emplace k c) k' r := by
    intro k' r hk'
    obtain ⟨hdata, hheap⟩ := hold k' r hk'
    exact ⟨hdata, by rw [hheap], by rw [hheap]; exact id⟩
  refine ⟨?_, ?_, ?_, ?_, ?_, ?_, fun q hq =>
    callOk_mono h hstays (fun _ hr => hr) (h.calls q hq)⟩
  · intro k' r hr
    rcases hcases k' r hr with ⟨rfl, rfl⟩ | hr
    · exact ⟨by simp, by simpa using hc⟩
    · rw [(hold k' r hr).2]
      exact ⟨Nat.lt_succ_of_lt (h.entry k' r hr).1, (h.entry k' r hr).2⟩
  · intro k₁ k₂ r h₁ h₂
    rcases hcases k₁ r h₁ with ⟨rfl, rfl⟩ | h₁'
    · rcases hcases k₂ s.next h₂ with ⟨rfl, -⟩ | h₂'
      · rfl
      · exact absurd (h.entry k₂ _ h₂').1 (Nat.lt_irrefl _)
    · rcases hcases k₂ r h₂ with ⟨rfl, rfl⟩ | h₂'
      · exact absurd (h.entry k₁ _ h₁').1 (Nat.lt_irrefl _)
      · exact h.inj k₁ k₂ r h₁' h₂'
  · intro t r ht
    obtain ⟨k', hk', hp⟩ := h.context t r ht
    exact ⟨k', (hold k' r hk').1, by rw [(hold k' r hk').2]; exact hp⟩
  · intro r hr
    exact (hold _ r (h.dataPlane r hr)).1
  · intro r hr
    obtain ⟨k', hk', hp⟩ := h.controlPlane r hr
    exact ⟨k', (hold k' r hk').1, by rw [(hold k' r hk').2]; exact hp⟩
  · intro r x hx
    by_cases hr : r = s.next
    · exact ⟨k, by simp [hr]⟩
    · obtain ⟨k', hk'⟩ := h.client r x (by simpa [hr] using hx)
      exact ⟨k', (hold k' r hk').1⟩

theorem inv_setContext {s : TCPServer} {k : Str} {t : TcpId} {r : Ref} (h : Inv peer s)
    (hk : s.connectionData k = some r) (hp : peer t = peerOf k (s.heap r).type)
    (hconn : (s.heap r).conn.isSome)
    (hplane : (s.heap r).type = .dataPlane → s.dataPlane = some r) :
    Inv peer (s.setContext t r) := by
  refine ⟨h.entry, h.inj, ?_, h.dataPlane, h.controlPlane, h.client, h.calls⟩
  intro t' r' ht'
  by_cases ht : t' = t
  · subst ht
    obtain rfl : r = r' := by simpa using ht'
    exact ⟨k, hk, hp, hconn, hplane⟩
  · exact h.context t' r' (by simpa [ht] using ht')

theorem inv_setPlane {s : TCPServer} {k : Str} {r : Ref} (h : Inv peer s)
    (hk : s.connectionData k = some r) : Inv peer (s.setPlane k r) := by
  unfold setPlane
  split
  · rename_i hd
    subst hd
    -- a data-plane pointer that is set already points to the same entry
    have hsame : ∀ r', s.dataPlane = some r' → r' = r := by
      intro r' hr'
      exact Option.some.inj ((h.dataPlane r' hr').symm.trans hk)
    refine ⟨h.entry, h.inj, ?_, ?_, h.controlPlane, h.client, fun q hq => callOk_mono h
      (fun k' r' hk' => ⟨hk', rfl, id⟩) (fun r' hr' => by rw [hsame r' hr']) (h.calls q hq)⟩
    · intro t r' ht
      obtain ⟨k', hk', hp, hconn, hplane⟩ := h.context t r' ht
      exact ⟨k', hk', hp, hconn, fun hty => by rw [hsame r' (hplane hty)]⟩
    · intro r' hr'
      obtain rfl : r = r' := by simpa using hr'
      exact hk
  · split
    · rename_i hd
      refine ⟨h.entry, h.inj, h.context, h.dataPlane, ?_, h.client, h.calls⟩
      intro r' hr'
      obtain rfl : r = r' := by simpa using hr'
      refine ⟨k, hk, ?_⟩
      subst hd
      have hne : CONTROLPLANE_ID ≠ CONTROLPLANE_KEY := by decide
      simp [peerOf, hne]
    · exact h

/-! ## Handling bytes keeps the invariant -/

/-- Handling bytes from `t` leaves the entries of other peers their parse state,
and every entry its place and its type. -/
def Keeps (peer : TcpId → Str) (t : TcpId) (s s' : TCPServer) : Prop :=
  ∀ k r, s.connectionData k = some r →
    s'.connectionData k = some r ∧ (s'.heap r).type = (s.heap r).type ∧
    (peerOf k (s.heap r).type ≠ peer t → (s'.heap r).parseState = (s.heap r).parseState)

theorem Keeps.refl (t : TcpId) (s : TCPServer) : Keeps peer t s s :=
  fun _ _ hk => ⟨hk, rfl, fun _ => rfl⟩

theorem Keeps.trans {t : TcpId} {s₁ s₂ s₃ : TCPServer} (h : Keeps peer t s₁ s₂)
    (h' : Keeps peer t s₂ s₃) : Keeps peer t s₁ s₃ := by
  intro k r hk
  obtain ⟨hk₂, hty₂, hp₂⟩ := h k r hk
  obtain ⟨hk₃, hty₃, hp₃⟩ := h' k r hk₂
  refine ⟨hk₃, hty₃.trans hty₂, fun hne => ?_⟩
  rw [hp₃ (by rw [hty₂]; exact hne), hp₂ hne]

/-- Bytes of a buffer, contexts and calls are no part of an entry. -/
theorem keeps_of_heap {t : TcpId} {s s' : TCPServer} (hheap : s'.heap = s.heap)
    (hdata : s'.connectionData = s.connectionData) : Keeps peer t s s' := by
  intro k r hk
  rw [hdata, hheap]
  exact ⟨hk, rfl, fun _ => rfl⟩

/-- Writing to the entry of the peer of `t`, or to no parse state. -/
theorem keeps_setConn {s : TCPServer} {t : TcpId} {k : Str} {r : Ref} {c : Connection}
    (h : Inv peer s) (hk : s.connectionData k = some r) (htype : c.type = (s.heap r).type)
    (hp : peer t = peerOf k (s.heap r).type ∨ c.parseState = (s.heap r).parseState) :
    Keeps peer t s (s.setConn r c) := by
  intro k' r' hk'
  refine ⟨hk', ?_, fun hne => ?_⟩
  · by_cases hr : r' = r
    · subst hr
      simpa using htype
    · simp [hr]
  · by_cases hr : r' = r
    · subst hr
      obtain rfl := h.inj k k' r' hk hk'
      rcases hp with hp | hp
      · exact absurd hp.symm hne
      · simpa using hp
    · simp [hr]

theorem keeps_emplace {s : TCPServer} {t : TcpId} {k : Str} {c : Connection} (h : Inv peer s)
    (hk : s.connectionData k = none) : Keeps peer t s (s.emplace k c) := by
  intro k' r hk'
  have hne : k' ≠ k := by
    rintro rfl
    rw [hk] at hk'
    cases hk'
  have hlt : r ≠ s.next := Nat.ne_of_lt (h.entry k' r hk').1
  exact ⟨by simpa [hne] using hk', by simp [hlt], fun _ => by simp [hlt]⟩

theorem entryOk_sameButParse {k : Str} {c c' : Connection} (h : EntryOk peer k c)
    (hs : SameButParse c c') : EntryOk peer k c' := by
  obtain ⟨-, htype, hid, hconn, -, -, hclient, -⟩ := hs
  constructor
  · rw [hid]
    exact h.id_eq
  · rw [htype]
    exact h.data
  · rw [htype, hid]
    exact h.control
  · rw [htype, hconn]
    exact h.conn
  · rw [htype, hclient]
    exact h.client

/-- The address of a process and a new entry for it concern no parser. -/
theorem inv_handleAppUpdate {s : TCPServer} (t : TcpId) (m : MessagePtr) (h : Inv peer s) :
    Inv peer (s.handleAppUpdate t m) ∧ Keeps peer t s (s.handleAppUpdate t m) ∧
      ∀ t', ((s.handleAppUpdate t m).tcp t').context = (s.tcp t').context := by
  generalize hm : ApplicationUpdate.processId m = name
  have hcall : Inv peer (s.toController t
      (.updateApplication (ApplicationUpdate.statusChange m) name)) := inv_toController h trivial
  have hkeeps : Keeps peer t s (s.toController t
      (.updateApplication (ApplicationUpdate.statusChange m) name)) := keeps_of_heap rfl rfl
  simp only [handleAppUpdate, toController_connectionData, hm]
  split
  · rename_i r hr
    have hok := (hcall.entry name r hr).2
    refine ⟨inv_setConn hcall hr rfl id ⟨hok.id_eq, hok.data, hok.control, hok.conn, hok.client⟩,
      ?_, fun _ => rfl⟩
    exact hkeeps.trans (keeps_setConn hcall hr rfl (Or.inr rfl))
  · rename_i hnone
    refine ⟨inv_emplace hcall hnone ⟨?_, ?_, ?_, ?_, ?_⟩, ?_, fun _ => rfl⟩
    · intro i hi
      exact (Option.some.inj hi).symm
    · intro hty
      cases hty
    · intro hty
      cases hty
    · intro t' ht'
      cases ht'
    · intro hcl
      cases hcl
    · exact hkeeps.trans (keeps_emplace hcall hnone)

/-- A call for the payload on the connection `r` of `t` names the peer of `t`. -/
theorem callOk_deliver {s : TCPServer} {k : Str} {payload : List Byte} {call : Call}
    (hk : s.connectionData k = some r) (hok : EntryOk peer k (s.heap r))
    (hp : peer t = peerOf k (s.heap r).type) (hconn : (s.heap r).conn.isSome)
    (hplane : (s.heap r).type = .dataPlane → s.dataPlane = some r)
    (h : deliverRequest (s.heap r) payload = .ok call ∨
      deliverRemote (s.heap r) payload = .ok call) :
    CallOk peer s (t, call) := by
  generalize hc : s.heap r = c at hok hp hconn hplane h
  have hremote : deliverRemote c payload = .ok call → CallOk peer s (t, call) := by
    intro h
    unfold deliverRemote idValue at h
    cases hid : c.id with
    | none => simp [hid] at h
    | some i =>
      obtain rfl : Call.remoteMessage c.curMsg payload i = call := by simpa [hid] using h
      obtain rfl : i = k := hok.id_eq i hid
      -- an entry with an id is not that of the control plane
      have hne : ¬ (i = CONTROLPLANE_KEY ∧ c.type = .controlPlane) := by
        rintro ⟨-, hty⟩
        rw [(hok.control hty).2] at hid
        cases hid
      have hself : peerOf i c.type = i := if_neg hne
      exact ⟨by rw [hp, hself], r, hk, by rw [hc]; exact hself, by rw [hc]; exact hconn⟩
  rcases h with h | h
  · cases hty : c.type with
    | dataPlane =>
      obtain rfl : Call.dataplaneMessage c.curMsg payload = call := by
        simpa [deliverRequest, hty] using h
      refine ⟨?_, r, hplane hty, by rw [hc]; exact hconn⟩
      rw [hp, hok.data hty, peerOf, if_neg]
      simp [hty]
    | controlPlane =>
      obtain rfl : Call.controlplaneMessage c.curMsg payload = call := by
        simpa [deliverRequest, hty] using h
      show peer t = CONTROLPLANE_ID
      rw [hp, peerOf]
      rcases (hok.control hty).1 with hk | hk
      · have hne : CONTROLPLANE_ID ≠ CONTROLPLANE_KEY := by decide
        simp [hk, hne]
      · simp [hk, hty]
    | process => exact hremote (by simpa [deliverRequest, deliverRemote, hty] using h)
    | localFunction => exact hremote (by simpa [deliverRequest, deliverRemote, hty] using h)
  · exact hremote h

/-- What every elementary change preserves. -/
theorem inv_act {s s' : TCPServer} (h : Inv peer s) (hctx : (s.tcp t).context = some r)
    (ha : Act t r s s') :
    Inv peer s' ∧ (s'.tcp t).context = some r ∧ Keeps peer t s s' := by
  obtain ⟨k, hk, hp, hconn, hplane⟩ := h.context t r hctx
  have hok := (h.entry k r hk).2
  cases ha with
  | parse c hsame =>
    have hsome : (s.heap r).conn.isSome → c.conn.isSome := by
      rw [hsame.2.2.2.1]
      exact id
    refine ⟨inv_setConn h hk hsame.2.1 hsome (entryOk_sameButParse hok hsame), hctx, ?_⟩
    exact keeps_setConn h hk hsame.2.1 (Or.inl hp)
  | retrieve n => exact ⟨inv_retrieve t n h, by simpa using hctx, keeps_of_heap rfl rfl⟩
  | deliver payload call hd =>
    exact ⟨inv_toController h (callOk_deliver hk hok hp hconn hplane hd), hctx, keeps_of_heap rfl rfl⟩
  | update m =>
    obtain ⟨hinv, hkeeps, hsame⟩ := inv_handleAppUpdate t m h
    exact ⟨hinv, by rw [hsame]; exact hctx, hkeeps⟩

theorem inv_acts {s s' : TCPServer} (h : Inv peer s) (hctx : (s.tcp t).context = some r)
    (ha : Acts t r s s') :
    Inv peer s' ∧ (s'.tcp t).context = some r ∧ Keeps peer t s s' := by
  induction ha with
  | refl => exact ⟨h, hctx, Keeps.refl t s⟩
  | tail _ hact ih =>
    obtain ⟨hinv, hctx', hkeeps⟩ := inv_act ih.1 ih.2.1 hact
    exact ⟨hinv, hctx', ih.2.2.trans hkeeps⟩

/-- The registration `name` may be handled on `t`: it names the peer, and is not
the key of the entry that `poll` has made. -/
def MayRegister (peer : TcpId → Str) (s : TCPServer) (t : TcpId) (name : Str) : Prop :=
  name = peer t ∧
    (name = CONTROLPLANE_KEY → ∀ r, s.connectionData name = some r →
      (s.heap r).type ≠ .controlPlane)

theorem peerOf_eq_self {s : TCPServer} {name : Str} (h : MayRegister peer s t name)
    (hr : s.connectionData name = some r) : peerOf name (s.heap r).type = name := by
  rw [peerOf, if_neg]
  rintro ⟨hkey, hty⟩
  exact h.2 hkey r hr hty

theorem registered_conn (name : Str) (t : TcpId) : (registered name t).conn = some t := by
  unfold registered
  split <;> [rfl; split <;> rfl]

theorem entryOk_registered {name : Str} (hname : name = peer t) :
    EntryOk peer name (registered name t) ∧ peer t = peerOf name (registered name t).type := by
  have hd : DATAPLANE_ID ≠ CONTROLPLANE_KEY := by decide
  have hc : CONTROLPLANE_ID ≠ CONTROLPLANE_KEY := by decide
  unfold registered
  split
  · rename_i hdata
    subst hdata
    constructor
    · constructor <;> simp [peerOf, ← hname]
    · simp [peerOf, ← hname]
  · split
    · rename_i hctl
      subst hctl
      constructor
      · constructor <;> simp [peerOf, ← hname, hc]
      · simp [peerOf, ← hname, hc]
    · constructor
      · constructor <;> simp [peerOf, ← hname]
      · simp [peerOf, ← hname]

/-- The end of a registration: pointers, context and confirmation. -/
theorem inv_attach {s : TCPServer} (name : Str) (bs : List Byte) (h : Inv peer s)
    (hr : s.connectionData name = some r) (hp : peer t = peerOf name (s.heap r).type)
    (hconn : (s.heap r).conn.isSome) :
    Inv peer (((s.setPlane name r).setContext t r).send t bs) ∧
      Keeps peer t s (((s.setPlane name r).setContext t r).send t bs) := by
  have hplane := inv_setPlane h hr
  have hpoint : ((s.setPlane name r).heap r).type = .dataPlane →
      (s.setPlane name r).dataPlane = some r := by
    intro hty
    have hname := (h.entry name r hr).2.data (by simpa using hty)
    simp [setPlane, hname]
  refine ⟨inv_send t bs (inv_setContext hplane (by simpa using hr) (by simpa using hp)
    (by simpa using hconn) hpoint), ?_⟩
  intro k r' hk
  exact ⟨by simpa using hk, by simp, fun _ => by simp⟩

/-- A registration under the name of the peer. -/
theorem inv_handleConnection {s s' : TCPServer} {m : MessagePtr} (h : Inv peer s)
    (hmay : MayRegister peer s t (ProcessConnection.processName m))
    (hcon : s.handleConnection t m = .ok s') :
    Inv peer s' ∧ (∃ r, (s'.tcp t).context = some r) ∧ Keeps peer t s s' := by
  generalize hm : ProcessConnection.processName m = name at hmay
  unfold handleConnection at hcon
  simp only [hm] at hcon
  split at hcon
  · cases hcon
  · rename_i req _
    obtain rfl := Except.ok.inj hcon
    cases hr : s.connectionData name with
    | some r =>
      -- the name is known: its record gets this connection
      have hself := peerOf_eq_self hmay hr
      have hok := (h.entry name r hr).2
      have hset : Inv peer (s.setConn r ((s.heap r).setConnected t)) := by
        refine inv_setConn h hr rfl (fun _ => rfl)
          ⟨hok.id_eq, hok.data, hok.control, ?_, hok.client⟩
        intro t' ht'
        obtain rfl : t = t' := Option.some.inj ht'
        exact hmay.1.symm.trans hself.symm
      obtain ⟨hinv, hkeeps⟩ := inv_attach (t := t) (r := r) name req.buf hset hr
        (by simpa using hmay.1.symm.trans hself.symm) (by simp)
      have hsame : Keeps peer t s (s.setConn r ((s.heap r).setConnected t)) :=
        keeps_setConn h hr rfl (Or.inr rfl)
      exact ⟨hinv, ⟨r, by simp⟩, hsame.trans hkeeps⟩
    | none =>
      -- a peer that was not known registers itself
      obtain ⟨hreg, hp⟩ := entryOk_registered (t := t) hmay.1
      have hnew := inv_emplace h hr hreg
      obtain ⟨hinv, hkeeps⟩ := inv_attach (t := t) (r := s.next) name req.buf hnew (by simp)
        (by simpa using hp) (by simp [registered_conn])
      have hsame : Keeps peer t s (s.emplace name (registered name t)) := keeps_emplace h hr
      exact ⟨hinv, ⟨s.next, by simp⟩, hsame.trans hkeeps⟩

/-- The name in the first registration of a buffer, the blocks before it being
other messages. -/
def registrationIn : ℕ → List Byte → Option Str
  | 0, _ => none
  | n + 1, b =>
    if b.length < BUF_SIZE then none
    else
      match MessageParser.parse (b.take BUF_SIZE) with
      | .ok (.processConnection m) => some (ProcessConnection.processName m)
      | .ok _ => registrationIn n (b.drop BUF_SIZE)
      | .error _ => none

/-- The name a peer that is not registered yet registers under, if the bytes
`b` complete a registration. -/
def registration (b : List Byte) : Option Str := registrationIn (b.length + 1) b

/-- `_handle_message` on a connection whose registration, if it is still to
come, names its peer. -/
theorem inv_handleLoop {n : ℕ} {s s' : TCPServer} (h : Inv peer s)
    (hreg : (s.tcp t).context = none →
      ∀ name, registrationIn n (s.tcp t).buffer = some name → MayRegister peer s t name)
    (hrun : handleLoop n s t = .ok s') : Inv peer s' ∧ Keeps peer t s s' := by
  induction n generalizing s with
  | zero =>
    obtain rfl := Except.ok.inj hrun
    exact ⟨h, Keeps.refl t s⟩
  | succ n ih =>
    simp only [handleLoop] at hrun
    -- what the pass preserves, and what is needed for the recursive call
    have hpass : ∀ s₁ again, s.handleOnce t = .ok (s₁, again) →
        Inv peer s₁ ∧ Keeps peer t s s₁ ∧ (again = true → (s₁.tcp t).context = none →
          ∀ name, registrationIn n (s₁.tcp t).buffer = some name →
            MayRegister peer s₁ t name) := by
      intro s₁ again honce
      cases hctx : (s.tcp t).context with
      | some r =>
        obtain ⟨hinv, hctx', hkeeps⟩ := inv_acts h hctx (acts_handleOnce hctx honce)
        exact ⟨hinv, hkeeps, fun _ hnone => by rw [hctx'] at hnone; cases hnone⟩
      | none =>
        have hreg' := hreg hctx
        rcases handleOnce_unregistered hctx honce with
          ⟨rfl, rfl⟩ | ⟨hlen, rfl, v, hv, hother⟩ | ⟨hlen, m, s₂, hm, hcon, rfl⟩
        · exact ⟨h, Keeps.refl t s₁, fun hfalse => by cases hfalse⟩
        · -- a message from an unknown recipient is dropped
          refine ⟨inv_retrieve t BUF_SIZE h, keeps_of_heap rfl rfl, fun _ _ name hname => ?_⟩
          have hskip : registrationIn (n + 1) (s.tcp t).buffer =
              registrationIn n ((s.tcp t).buffer.drop BUF_SIZE) := by
            rw [registrationIn, if_neg (by omega), hv]
            cases v with
            | processConnection m => exact absurd rfl (hother m)
            | _ => rfl
          exact hreg' name (by rw [hskip]; simpa using hname)
        · have hname : registrationIn (n + 1) (s.tcp t).buffer =
              some (ProcessConnection.processName m) := by
            rw [registrationIn, if_neg (by omega), hm]
          obtain ⟨hinv, ⟨r, hr⟩, hkeeps⟩ := inv_handleConnection h (hreg' _ hname) hcon
          refine ⟨inv_retrieve t BUF_SIZE hinv, hkeeps.trans (keeps_of_heap rfl rfl), ?_⟩
          intro _ hnone
          have hsome : ((s₂.retrieve t BUF_SIZE).tcp t).context = some r := by simpa using hr
          rw [hsome] at hnone
          cases hnone
    cases honce : s.handleOnce t with
    | error x => simp [honce] at hrun
    | ok q =>
      obtain ⟨s₁, again⟩ := q
      obtain ⟨hinv, hkeeps, hnext⟩ := hpass s₁ again honce
      cases again with
      | false =>
        obtain rfl : s₁ = s' := by simpa [honce] using hrun
        exact ⟨hinv, hkeeps⟩
      | true =>
        rw [honce] at hrun
        obtain ⟨hinv', hkeeps'⟩ := ih hinv (hnext rfl) hrun
        exact ⟨hinv', hkeeps.trans hkeeps'⟩

theorem inv_receive {s s' : TCPServer} {chunk : List Byte} (h : Inv peer s)
    (hreg : (s.tcp t).context = none →
      ∀ name, registration ((s.tcp t).buffer ++ chunk) = some name → MayRegister peer s t name)
    (hrun : s.receive t chunk = .ok s') : Inv peer s' ∧ Keeps peer t s s' := by
  have happ := inv_append t chunk h
  obtain ⟨hinv, hkeeps⟩ := inv_handleLoop happ
    (fun hctx name hname => hreg (by simpa using hctx) name (by simpa [registration] using hname))
    hrun
  exact ⟨hinv, hkeeps⟩

/-! ## The other steps -/

theorem inv_setStatus {s : TCPServer} {k : Str} (status : Status) (h : Inv peer s)
    (hk : s.connectionData k = some r) : Inv peer (s.setConn r ((s.heap r).setStatus status)) := by
  have hok := (h.entry k r hk).2
  exact inv_setConn h hk rfl id ⟨hok.id_eq, hok.data, hok.control, hok.conn, hok.client⟩

theorem inv_setPending {s : TCPServer} {k : Str} (msgs : List (List Byte × List Byte))
    (h : Inv peer s) (hk : s.connectionData k = some r) :
    Inv peer (s.setConn r ((s.heap r).setPending msgs)) := by
  have hok := (h.entry k r hk).2
  exact inv_setConn h hk rfl id ⟨hok.id_eq, hok.data, hok.control, hok.conn, hok.client⟩

theorem inv_connect {s : TCPServer} {k : Str} (h : Inv peer s)
    (hk : s.connectionData k = some r) : Inv peer (s.connect r) := by
  have hok := (h.entry k r hk).2
  refine inv_setConn h hk rfl id ⟨hok.id_eq, hok.data, hok.control, hok.conn, ?_⟩
  intro hcl
  cases hcl

theorem inv_sendOrStore {s : TCPServer} {k : Str} (req : MessageData) (payload : List Byte)
    (h : Inv peer s) (hk : s.connectionData k = some r) :
    Inv peer (s.sendOrStore r req payload) := by
  unfold sendOrStore
  split
  · have hpending := inv_setPending ((s.heap r).pendingMsgs ++ [(req.buf, payload)]) h hk
    simp only
    split
    · exact inv_connect hpending hk
    · exact hpending
  · exact inv_send _ _ (inv_send _ _ h)

theorem inv_sendPending {s : TCPServer} (t : TcpId) (msgs : List (List Byte × List Byte))
    (h : Inv peer s) :
    Inv peer (s.sendPending t msgs) ∧ (s.sendPending t msgs).connectionData = s.connectionData := by
  unfold sendPending
  induction msgs generalizing s with
  | nil => exact ⟨h, rfl⟩
  | cons m msgs ih =>
    simp only [List.foldl_cons]
    split
    · exact ih (inv_send _ _ (inv_send _ _ h))
    · exact ih (inv_send _ _ h)

theorem inv_poll {s s' : TCPServer} (h : Inv peer s) (hs : s.poll = .ok s') : Inv peer s' := by
  unfold poll at hs
  cases hk : s.connectionData CONTROLPLANE_KEY with
  | some r => simp [hk] at hs
  | none =>
    simp only [hk, Except.ok.injEq] at hs
    subst hs
    have hok : EntryOk peer CONTROLPLANE_KEY
        { status := .connecting, type := .controlPlane, id := none, client := some .poll } := by
      constructor <;> simp
    have hnew := inv_emplace h hk hok
    refine ⟨hnew.entry, hnew.inj, hnew.context, hnew.dataPlane, ?_, hnew.client, hnew.calls⟩
    intro r hr
    obtain rfl : s.next = r := Option.some.inj hr
    exact ⟨CONTROLPLANE_KEY, by simp, by simp [peerOf]⟩

/-- The client of an entry has reached the peer the entry stands for. -/
theorem inv_connected {s s' : TCPServer} (h : Inv peer s)
    (hpoll : (s.heap r).client = some .poll → peer t = CONTROLPLANE_ID)
    (hconn : (s.heap r).client = some .connect → (s.heap r).id = some (peer t))
    (hs : s.connected r t = .ok s') : Inv peer s' := by
  unfold connected at hs
  split at hs
  · obtain rfl := Except.ok.inj hs
    exact h
  · rename_i hcl
    obtain ⟨k, hk⟩ := h.client r _ hcl
    have hok := (h.entry k r hk).2
    have hp : peer t = peerOf k (s.heap r).type := by
      rw [hpoll hcl, peerOf, if_pos (hok.client hcl)]
    obtain ⟨req, -, hs⟩ := Lts.bind_ok hs
    obtain rfl := Except.ok.inj hs
    have hopen := inv_send t req.buf (inv_openTcp t (.client r) h)
    have hset : Inv peer (((s.openTcp t (.client r)).send t req.buf).setConn r
        { s.heap r with conn := some t }) := by
      refine inv_setConn hopen hk rfl (fun _ => rfl)
        ⟨hok.id_eq, hok.data, hok.control, ?_, hok.client⟩
      intro t' ht'
      obtain rfl : t = t' := Option.some.inj ht'
      exact hp
    -- the context is set before the pointer; the order makes no difference
    refine inv_setContext hset hk (by simpa using hp) (by simp) (fun hty => ?_)
    simp [(hok.client hcl).2] at hty
  · rename_i hcl
    obtain ⟨k, hk⟩ := h.client r _ hcl
    have hok := (h.entry k r hk).2
    have hp : peer t = peerOf k (s.heap r).type := by
      have hid := hconn hcl
      rw [peerOf, if_neg]
      · exact hok.id_eq _ hid
      · rintro ⟨-, hty⟩
        rw [(hok.control hty).2] at hid
        cases hid
    obtain ⟨req, -, hs⟩ := Lts.bind_ok hs
    obtain rfl := Except.ok.inj hs
    have hopen := inv_send t req.buf (inv_openTcp t (.client r) h)
    have hset := inv_setConn (c := (s.heap r).setConnected t) hopen hk rfl (fun _ => rfl)
      ⟨hok.id_eq, hok.data, hok.control, fun t' ht' => by
        obtain rfl : t = t' := Option.some.inj ht'
        exact hp, hok.client⟩
    obtain ⟨hflush, hdata⟩ := inv_sendPending t _ hset
    exact inv_setPending [] hflush ((congrFun hdata k).trans hk)

theorem inv_disconnected {s : TCPServer} (r : Ref) (h : Inv peer s) :
    Inv peer (s.disconnected r) := by
  unfold disconnected
  split
  · exact h
  · exact ⟨h.entry, h.inj, h.context, h.dataPlane, by simp, h.client, h.calls⟩
  · rename_i hcl
    obtain ⟨k, hk⟩ := h.client r _ hcl
    exact inv_setStatus .disconnected h hk

/-- A result is sent on the connection that the source stands for. -/
theorem invocationResult_sent {s s' : TCPServer} {source : RemoteType} {remote : Option Str}
    {id : StringView} {code : Int} {payload : List Byte}
    (hs : s.invocationResult source remote id code payload = .ok s') :
    (s.resultConnection source remote = none ∧ s' = s) ∨
    ∃ r t l, s.resultConnection source remote = some r ∧ (s.heap r).conn = some t ∧
      s' = { s with sent := s.sent ++ l } ∧ l ≠ [] ∧ ∀ q ∈ l, q.1 = t := by
  unfold invocationResult at hs
  split at hs
  · rename_i hnone
    exact Or.inl ⟨hnone, (Except.ok.inj hs).symm⟩
  · rename_i r hr
    obtain ⟨req, -, hs⟩ := Lts.bind_ok hs
    split at hs
    · cases hs
    · rename_i t ht
      obtain rfl := Except.ok.inj hs
      split
      · exact Or.inr ⟨r, t, [(t, req.buf), (t, payload)], hr, ht, by simp [send], by simp, by simp⟩
      · exact Or.inr ⟨r, t, [(t, req.buf)], hr, ht, rfl, by simp, by simp⟩

theorem inv_invocationResult {s s' : TCPServer} {source : RemoteType} {remote : Option Str}
    {id : StringView} {code : Int} {payload : List Byte} (h : Inv peer s)
    (hs : s.invocationResult source remote id code payload = .ok s') : Inv peer s' := by
  rcases invocationResult_sent hs with ⟨-, rfl⟩ | ⟨r, t, l, -, -, rfl, -, -⟩
  · exact h
  · exact inv_congr h rfl rfl rfl rfl rfl (fun _ => rfl) rfl

theorem inv_putMessage {s s' : TCPServer} {processId : Str} {name : StringView}
    {payload : List Byte} (h : Inv peer s) (hs : s.putMessage processId name payload = .ok s') :
    Inv peer s' := by
  unfold putMessage at hs
  split at hs
  · obtain rfl := Except.ok.inj hs
    exact h
  · rename_i r hr
    obtain ⟨req, -, hs⟩ := Lts.bind_ok hs
    obtain ⟨req', -, hs⟩ := Lts.bind_ok hs
    obtain rfl := Except.ok.inj hs
    exact inv_sendOrStore _ _ h hr

theorem inv_invocationRequest {s s' : TCPServer} {processId : Str}
    {functionName invocationId : StringView} {payload : List Byte} (h : Inv peer s)
    (hs : s.invocationRequest processId functionName invocationId payload = .ok s') :
    Inv peer s' := by
  unfold invocationRequest at hs
  split at hs
  · obtain rfl := Except.ok.inj hs
    exact h
  · rename_i r hr
    obtain ⟨req, -, hs⟩ := Lts.bind_ok hs
    obtain ⟨req', -, hs⟩ := Lts.bind_ok hs
    obtain ⟨req'', -, hs⟩ := Lts.bind_ok hs
    obtain rfl := Except.ok.inj hs
    exact inv_sendOrStore _ _ h hr

/-! ## Runs -/

/-- What the environment does: TCP connections are new when they are opened,
bytes arrive on open connections, peers that connect to the server register
under their names, and the server's own connections reach the process, or the
control plane, that they are for. -/
def Honest (peer : TcpId → Str) (s : TCPServer) : Event → Prop
  | .accept t => (s.tcp t).origin = none
  | .receive t chunk =>
    (s.tcp t).origin ≠ none ∧
    ((s.tcp t).origin = some .accepted → (s.tcp t).context = none →
      ∀ name ∈ registration ((s.tcp t).buffer ++ chunk), name = peer t)
  | .connected r t =>
    (s.tcp t).origin = none ∧
    ((s.heap r).client = some .poll → peer t = CONTROLPLANE_ID) ∧
    ((s.heap r).client = some .connect → (s.heap r).id = some (peer t))
  | _ => True

instance (peer : TcpId → Str) (s : TCPServer) (e : Event) : Decidable (Honest peer s e) :=
  match e with
  | .accept _ => inferInstanceAs (Decidable (_ = _))
  | .receive _ _ => inferInstanceAs (Decidable (_ ∧ _))
  | .connected _ _ => inferInstanceAs (Decidable (_ ∧ _))
  | .poll => isTrue trivial
  | .disconnected _ => isTrue trivial
  | .invocationResult .. => isTrue trivial
  | .putMessage .. => isTrue trivial
  | .invocationRequest .. => isTrue trivial

/-- The step handles no registration that confuses peers: none under a name
other than the peer's on a connection the server has opened, and none under the
key that `poll` has used for the control plane. -/
def Unambiguous (peer : TcpId → Str) (s : TCPServer) : Event → Prop
  | .receive t chunk =>
    (s.tcp t).context = none →
      ∀ name ∈ registration ((s.tcp t).buffer ++ chunk),
        ((s.tcp t).origin ≠ some .accepted → name = peer t) ∧
        (name = CONTROLPLANE_KEY → ∀ r ∈ s.connectionData name,
          (s.heap r).type ≠ .controlPlane)
  | _ => True

instance (peer : TcpId → Str) (s : TCPServer) (e : Event) : Decidable (Unambiguous peer s e) :=
  match e with
  | .receive _ _ => inferInstanceAs (Decidable (_ → _))
  | .poll => isTrue trivial
  | .accept _ => isTrue trivial
  | .connected _ _ => isTrue trivial
  | .disconnected _ => isTrue trivial
  | .invocationResult .. => isTrue trivial
  | .putMessage .. => isTrue trivial
  | .invocationRequest .. => isTrue trivial

theorem mayRegister_of {s : TCPServer} {chunk : List Byte}
    (hh : Honest peer s (.receive t chunk)) (hu : Unambiguous peer s (.receive t chunk))
    (hctx : (s.tcp t).context = none) (name : Str)
    (hname : registration ((s.tcp t).buffer ++ chunk) = some name) :
    MayRegister peer s t name := by
  refine ⟨?_, (hu hctx name hname).2⟩
  by_cases ho : (s.tcp t).origin = some .accepted
  · exact hh.2 ho hctx name hname
  · exact (hu hctx name hname).1 ho

theorem inv_step {s s' : TCPServer} {e : Event} (h : Inv peer s)
    (hc : Honest peer s e ∧ Unambiguous peer s e) (hs : step s e = .ok s') : Inv peer s' := by
  cases e with
  | poll => exact inv_poll h hs
  | accept t =>
    obtain rfl := Except.ok.inj hs
    exact inv_openTcp t _ h
  | receive t chunk => exact (inv_receive h (mayRegister_of hc.1 hc.2) hs).1
  | connected r t => exact inv_connected h hc.1.2.1 hc.1.2.2 hs
  | disconnected r =>
    obtain rfl := Except.ok.inj hs
    exact inv_disconnected r h
  | invocationResult => exact inv_invocationResult h hs
  | putMessage => exact inv_putMessage h hs
  | invocationRequest => exact inv_invocationRequest h hs

/-- Where the reply to a call goes, as the controller takes it from the call. -/
def Call.source : Call → Option (RemoteType × Option Str)
  | .remoteMessage _ _ processId => some (.process, some processId)
  | .dataplaneMessage _ _ => some (.dataPlane, none)
  | .controlplaneMessage _ _ => some (.controlPlane, none)
  | .updateApplication _ _ => none

/-- The connections keep their identity in the state `s`. -/
structure Identified (peer : TcpId → Str) (s : TCPServer) : Prop where
  /-- A parse state is used for the TCP connections of one peer only. -/
  isolated : ∀ t t' r, (s.tcp t).context = some r → (s.tcp t').context = some r →
    peer t = peer t'
  /-- A message is attributed to the peer it came from. -/
  attributed : ∀ t msg payload processId,
    (t, Call.remoteMessage msg payload processId) ∈ s.calls → processId = peer t
  /-- The reply to a message is sent to the peer it came from; only one to the
  control plane may be dropped, when the connection to it is lost. -/
  answered : ∀ t k source remote, (t, k) ∈ s.calls → k.source = some (source, remote) →
    ∀ id code payload s', s.invocationResult source remote id code payload = .ok s' →
      ∃ l, s'.sent = s.sent ++ l ∧ (∀ q ∈ l, peer q.1 = peer t) ∧
        (l = [] → source = .controlPlane ∧ s.controlPlane = none)
  /-- A process or the data plane can always be answered. -/
  answerable : ∀ t k source remote, (t, k) ∈ s.calls → k.source = some (source, remote) →
    source ≠ .controlPlane → ∀ id : StringView, id.length ≤ ID_LENGTH → ∀ code payload,
      ∃ s', s.invocationResult source remote id code payload = .ok s'

theorem resultConnection_peer {s : TCPServer} (h : Inv peer s) {k : Call}
    {source : RemoteType} {remote : Option Str} (hk : (t, k) ∈ s.calls)
    (hsource : k.source = some (source, remote))
    (hr : s.resultConnection source remote = some r) {t' : TcpId}
    (ht' : (s.heap r).conn = some t') : peer t' = peer t := by
  -- each kind of call is answered through the entry of its peer
  have hcall := h.calls (t, k) hk
  cases k with
  | remoteMessage msg payload processId =>
    obtain ⟨rfl, rfl⟩ : RemoteType.process = source ∧ some processId = remote := by
      simpa [Call.source] using hsource
    obtain ⟨hproc, r', hr', hself, -⟩ := hcall
    have hdata : s.connectionData processId = some r := by simpa [resultConnection] using hr
    obtain rfl : r = r' := Option.some.inj (hdata.symm.trans hr')
    rw [(h.entry processId r hdata).2.conn t' ht', hself, hproc]
  | dataplaneMessage msg payload =>
    obtain ⟨rfl, rfl⟩ : RemoteType.dataPlane = source ∧ none = remote := by
      simpa [Call.source] using hsource
    have hp : peer t = DATAPLANE_ID := hcall.1
    have hdata := h.dataPlane r (by simpa [resultConnection] using hr)
    have hne : DATAPLANE_ID ≠ CONTROLPLANE_KEY := by decide
    rw [(h.entry _ r hdata).2.conn t' ht', hp, peerOf, if_neg (by simp [hne])]
  | controlplaneMessage msg payload =>
    obtain ⟨rfl, rfl⟩ : RemoteType.controlPlane = source ∧ none = remote := by
      simpa [Call.source] using hsource
    have hp : peer t = CONTROLPLANE_ID := hcall
    obtain ⟨k, hdata, hplane⟩ := h.controlPlane r (by simpa [resultConnection] using hr)
    rw [(h.entry k r hdata).2.conn t' ht', hplane, hp]
  | updateApplication status process => cases hsource

/-- Only a result for the control plane may have no connection. -/
theorem resultConnection_none {s : TCPServer} (h : Inv peer s) {k : Call}
    {source : RemoteType} {remote : Option Str} (hk : (t, k) ∈ s.calls)
    (hsource : k.source = some (source, remote))
    (hnone : s.resultConnection source remote = none) :
    source = .controlPlane ∧ s.controlPlane = none := by
  have hcall := h.calls (t, k) hk
  cases k with
  | remoteMessage msg payload processId =>
    obtain ⟨rfl, rfl⟩ : RemoteType.process = source ∧ some processId = remote := by
      simpa [Call.source] using hsource
    obtain ⟨-, r, hr, -⟩ := hcall
    simp [resultConnection, hr] at hnone
  | dataplaneMessage msg payload =>
    obtain ⟨rfl, rfl⟩ : RemoteType.dataPlane = source ∧ none = remote := by
      simpa [Call.source] using hsource
    obtain ⟨-, r, hr, -⟩ := hcall
    simp [resultConnection, hr] at hnone
  | controlplaneMessage msg payload =>
    obtain ⟨rfl, rfl⟩ : RemoteType.controlPlane = source ∧ none = remote := by
      simpa [Call.source] using hsource
    exact ⟨rfl, by simpa [resultConnection] using hnone⟩
  | updateApplication status process => cases hsource

theorem resultHeader_ok {id : StringView} (hid : id.length ≤ ID_LENGTH) (code : Int)
    (payload : List Byte) : ∃ req, resultHeader id code payload = .ok req := by
  have hlen : ¬ ID_LENGTH < id.length := by omega
  simp [resultHeader, InvocationResult.setInvocationId, MessageData.setStr, hlen, bind,
    Except.bind, pure, Except.pure]

theorem invocationResult_ok {s : TCPServer} {source : RemoteType} {remote : Option Str}
    {id : StringView} (hr : s.resultConnection source remote = some r)
    (hconn : (s.heap r).conn.isSome) (hid : id.length ≤ ID_LENGTH) (code : Int)
    (payload : List Byte) : ∃ s', s.invocationResult source remote id code payload = .ok s' := by
  obtain ⟨req, hreq⟩ := resultHeader_ok hid code payload
  obtain ⟨t, ht⟩ := Option.isSome_iff_exists.1 hconn
  simp [invocationResult, hr, hreq, ht, bind, Except.bind, pure, Except.pure]

theorem identified_of_inv {s : TCPServer} (h : Inv peer s) : Identified peer s := by
  constructor
  · intro t t' r ht ht'
    obtain ⟨k, hk, hp, -⟩ := h.context t r ht
    obtain ⟨k', hk', hp', -⟩ := h.context t' r ht'
    rw [hp, hp', h.inj k k' r hk hk']
  · intro t msg payload processId hcall
    exact (h.calls _ hcall).1
  · intro t k source remote hk hsource id code payload s' hs'
    rcases invocationResult_sent hs' with ⟨hnone, rfl⟩ | ⟨r, t', l, hr, ht', rfl, hne, hl⟩
    · exact ⟨[], by simp, by simp, fun _ => resultConnection_none h hk hsource hnone⟩
    · refine ⟨l, rfl, fun q hq => ?_, fun hnil => absurd hnil hne⟩
      rw [hl q hq]
      exact resultConnection_peer h hk hsource hr ht'
  · intro t k source remote hk hsource hne id hid code payload
    have hcall := h.calls (t, k) hk
    cases k with
    | remoteMessage msg payload' processId =>
      obtain ⟨rfl, rfl⟩ : RemoteType.process = source ∧ some processId = remote := by
        simpa [Call.source] using hsource
      obtain ⟨-, r, hr, -, hconn⟩ := hcall
      exact invocationResult_ok (by simpa [resultConnection] using hr) hconn hid code payload
    | dataplaneMessage msg payload' =>
      obtain ⟨rfl, rfl⟩ : RemoteType.dataPlane = source ∧ none = remote := by
        simpa [Call.source] using hsource
      obtain ⟨-, r, hr, hconn⟩ := hcall
      exact invocationResult_ok (by simpa [resultConnection] using hr) hconn hid code payload
    | controlplaneMessage msg payload' =>
      obtain ⟨rfl, -⟩ : RemoteType.controlPlane = source ∧ none = remote := by
        simpa [Call.source] using hsource
      exact absurd rfl hne
    | updateApplication status process => cases hsource

/-- **Identity.** In every run of an honest environment whose steps handle no
confusing registration, connections of different peers share no parse state and
bytes from one never change that of another, every message is attributed to the
peer it came from, and the result of a request goes to the peer that sent it. -/
theorem connections_keep_identity (peer : TcpId → Str) (own : Str) (es : List Event)
    (s : TCPServer) (hrun : Lts.run step (TCPServer.new own) es = .ok s)
    (hhonest : Lts.Meets step (Honest peer) (TCPServer.new own) es)
    (hunamb : Lts.Meets step (Unambiguous peer) (TCPServer.new own) es) :
    Identified peer s ∧
    ∀ t chunk s', Honest peer s (.receive t chunk) → Unambiguous peer s (.receive t chunk) →
      s.receive t chunk = .ok s' →
      ∀ t' r, (s.tcp t').context = some r → peer t' ≠ peer t →
        (s'.heap r).parseState = (s.heap r).parseState := by
  have hinv : Inv peer s := Lts.run_invariant (fun _ _ _ h hc hs => inv_step h hc hs)
    (inv_new own) (hhonest.and hunamb) hrun
  refine ⟨identified_of_inv hinv, ?_⟩
  intro t chunk s' hh hu hs t' r ht' hne
  obtain ⟨k, hk, hp, -⟩ := hinv.context t' r ht'
  obtain ⟨-, hkeeps⟩ := inv_receive hinv (mayRegister_of hh hu) hs
  exact (hkeeps k r hk).2.2 (by rw [← hp]; exact hne)

/-- The header of a registration under the given name. -/
def registrationHeader (name : Str) : List Byte :=
  [1, 0, 0, 0, 0, 0] ++ name ++ List.replicate (64 - name.length) 0

/-- The header of an update: the process has become active. -/
def updateHeader (name : Str) : List Byte :=
  [8, 0, 0, 0, 0, 0] ++ name ++ List.replicate (48 - name.length) 0 ++ [1] ++
    List.replicate 15 0

/-- The processes `a` and `b` connect, and `a` sends a message. -/
theorem two_peers_identified : ∃ s,
    Lts.run step (TCPServer.new (str ['q']))
      [.accept 0, .accept 1, .receive 0 (registrationHeader (str ['a'])),
        .receive 1 (registrationHeader (str ['b'])),
        .receive 0 ([9, 0] ++ List.replicate 68 0)] = .ok s ∧
    s.calls.length = 1 ∧ Identified (fun t => if t = 0 then str ['a'] else str ['b']) s := by
  obtain ⟨s, hs, hcalls⟩ := Lts.run_test step (TCPServer.new (str ['q']))
    [.accept 0, .accept 1, .receive 0 (registrationHeader (str ['a'])),
      .receive 1 (registrationHeader (str ['b'])),
      .receive 0 ([9, 0] ++ List.replicate 68 0)]
    (fun s => s.calls.length = 1) (by decide +kernel)
  exact ⟨s, hs, hcalls, (connections_keep_identity
    (fun t => if t = 0 then str ['a'] else str ['b']) (str ['q']) _ s hs
    (by decide +kernel) (by decide +kernel)).1⟩

/-- The server opens connections to `a` and to `b`; both confirm, and their two
TCP connections end up with the `Connection` of a process named `CORRECT`. -/
theorem confirmations_share_connection :
    ¬ ∀ (peer : TcpId → Str) (own : Str) (es : List Event) (s : TCPServer),
      Lts.run step (TCPServer.new own) es = .ok s →
      Lts.Meets step (Honest peer) (TCPServer.new own) es → Identified peer s := by
  intro h
  obtain ⟨s, hs, h1, h2⟩ := Lts.run_test step (TCPServer.new (str ['q']))
    [.poll, .connected 0 0,
      .receive 0 (updateHeader (str ['a']) ++ updateHeader (str ['b'])),
      .putMessage (str ['a']) (.ofStr (str ['m'])) [], .connected 1 1,
      .receive 1 (registrationHeader CORRECT),
      .putMessage (str ['b']) (.ofStr (str ['m'])) [], .connected 2 2,
      .receive 2 (registrationHeader CORRECT)]
    (fun s => (s.tcp 1).context = some 3 ∧ (s.tcp 2).context = some 3) (by decide +kernel)
  have hid := h (fun t => if t = 0 then CONTROLPLANE_ID else if t = 1 then str ['a'] else str ['b'])
    (str ['q']) _ s hs (by decide +kernel)
  have hne : str ['a'] ≠ str ['b'] := by decide
  exact hne (by simpa using hid.isolated 1 2 3 h1 h2)

end Praas.Process.Remote
