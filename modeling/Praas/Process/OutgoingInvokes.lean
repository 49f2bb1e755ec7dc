import Praas.Process.Controller
import Praas.Process.RemoteLosses
import Praas.Process.PayloadLengths

/-! # Invocations of other processes

A worker invokes a function of another process: the controller stores the worker as waiting
and calls the TCP server, which returns nothing. The `TcpClient` of `_connect` has no callback
for errors and does not try again, so an attempt that is refused leaves the `Connection` as it
was.

* `Attempts`: the client of a `Connection` is started once, and one without a TCP connection
  has a client exactly if it is not DISCONNECTED.
* `invoke_handled_iff`: in every reachable state, a request is written, or stored with an
  attempt under way, or answered, exactly if its process is known, its connection is open, or
  without one no attempt was refused. The worker waits in any case.
-/

namespace Praas.Process

open Remote

def ServerCall.event : ServerCall → TCPServer.Event
  | .invocationResult source remoteProcess invocationId returnCode payload =>
    .invocationResult source remoteProcess (.ofStr invocationId) returnCode payload
  | .invocationRequest remoteProcess functionName invocationId payload =>
    .invocationRequest remoteProcess (.ofStr functionName) (.ofStr invocationId) payload
  | .putMessage remoteProcess name payload => .putMessage remoteProcess (.ofStr name) payload

def Output.call : Output → Option ServerCall
  | .server c => some c
  | .toWorker .. => none

def Output.reply : Output → Option (ℕ × WorkerMessage)
  | .server _ => none
  | .toWorker w m => some (w, m)

/-- The controller with its server, what was sent to the workers, and the `Connection`s whose
client has reached its peer or was refused. -/
structure Host where
  ctl : Controller
  net : Net
  replies : List (ℕ × WorkerMessage) := []
  ended : List Ref := []

namespace Host

inductive Event where
  | input (i : Controller.Input)
  | server (e : TCPServer.Event)
  | lost (t : TcpId)
  | refused (r : Ref)

def new (own : Str) (functionWorkers : ℕ) (functions : Str → Option Trigger) : Host where
  ctl := Controller.new own functionWorkers functions
  net := Net.new own

abbrev heap (s : Host) : Ref → Connection := s.net.server.heap

/-- The client of the `Connection` was started, and nothing has come of it yet. -/
def UnderWay (s : Host) (r : Ref) : Prop := (s.heap r).client ≠ none ∧ r ∉ s.ended

instance (s : Host) (r : Ref) : Decidable (s.UnderWay r) := inferInstanceAs (Decidable (_ ∧ _))

/-- A client reaches its peer while it tries to; the calls are those of the controller. -/
def Possible (s : Host) : TCPServer.Event → Prop
  | .connected r t => s.UnderWay r ∧ s.net.Possible (.connected r t)
  | .invocationResult .. => False
  | .putMessage .. => False
  | .invocationRequest .. => False
  | _ => True

instance (s : Host) : DecidablePred s.Possible
  | .connected _ _ => inferInstanceAs (Decidable (_ ∧ _))
  | .invocationResult .. => isFalse id
  | .putMessage .. => isFalse id
  | .invocationRequest .. => isFalse id
  | .poll => isTrue trivial
  | .accept _ => isTrue trivial
  | .receive _ _ => isTrue trivial
  | .disconnected _ => isTrue trivial

def endedBy : TCPServer.Event → List Ref
  | .connected r _ => [r]
  | _ => []

@[simps] def setNet (s : Host) (net : Net) : Host := { s with net := net }

/-- The calls of the controller reach the server in order. -/
def serve (server : TCPServer) (calls : List ServerCall) : Except Fault TCPServer :=
  calls.foldlM (fun server c => server.step c.event) server

def step (s : Host) : Event → Except Fault Host
  | .input i => do
    let r ← s.ctl.handle i
    let server ← serve s.net.server (r.2.filterMap Output.call)
    return { s with
      ctl := r.1
      net := { s.net with server := server }
      replies := s.replies ++ r.2.filterMap Output.reply }
  | .server e =>
    if s.Possible e then do
      let net ← s.net.step (.server e)
      return { s with net := net, ended := s.ended ++ endedBy e }
    else .ok s
  | .lost t => (s.net.step (.lost t)).map s.setNet
  | .refused r => if s.UnderWay r then .ok { s with ended := s.ended ++ [r] } else .ok s

/-! ## What becomes of a request -/

/-- A request of a worker. -/
structure Request where
  worker : ℕ
  req : Ipc.InvocationRequestParsed
  payload : Buffer
  env : Env

namespace Request

def input (q : Request) : Controller.Input :=
  .internal q.worker (.invocationRequest q.req) q.payload q.env

def header (q : Request) : Except Fault Message.MessageData :=
  TCPServer.requestHeader (.ofStr q.req.functionName.1) (.ofStr q.req.invocationId.1) q.payload

/-- The entry of the worker that waits. -/
def waiter (q : Request) : Str × PendingMessage :=
  (q.req.invocationId.1, { type := .invocation, source := some [], worker := q.worker })

end Request

variable (s t : Host) (q : Request)

/-- It is written to an open connection to its process. -/
def Written : Prop :=
  ∃ r tcp header, s.net.server.connectionData q.req.processId.1 = some r ∧
    q.header = .ok header ∧ (s.heap r).conn = some tcp ∧ s.net.Open tcp ∧
    t.net.server.sent = s.net.server.sent ++ [(tcp, header.buf), (tcp, q.payload)]

/-- It is stored for its process, and an attempt to reach it is under way. -/
def Stored : Prop :=
  ∃ r header, s.net.server.connectionData q.req.processId.1 = some r ∧
    q.header = .ok header ∧
    (t.heap r).pendingMsgs = (s.heap r).pendingMsgs ++ [(header.buf, q.payload)] ∧ t.UnderWay r

/-- The worker gets an error. -/
def Answered : Prop :=
  ∃ replies result payload, t.replies = s.replies ++ replies ∧
    (q.worker, WorkerMessage.invocationResult result payload) ∈ replies ∧
    result.invocationId = q.req.invocationId ∧ result.returnCode ≠ 0

def Handled : Prop := s.Written t q ∨ s.Stored t q ∨ s.Answered t q

/-- The process is known, its connection is open, and without one no attempt has ended. -/
def Reaches (processId : Str) : Prop :=
  ∃ r, s.net.server.connectionData processId = some r ∧
    (∀ tcp, (s.heap r).conn = some tcp → s.net.Open tcp) ∧
    ((s.heap r).conn = none → r ∉ s.ended)

/-! ## What the server preserves -/

/-- Without a TCP connection, there is a client exactly if one was to be connected. -/
def Tells (c : Connection) : Prop := c.conn = none → (c.status = .disconnected ↔ c.client = none)

/-- It is not forgotten that there is a client or a TCP connection. -/
def Grows (c c' : Connection) : Prop :=
  (c.client ≠ none → c'.client ≠ none) ∧ (c.conn ≠ none → c'.conn ≠ none)

structure Attempts (ended : List Ref) (s : TCPServer) : Prop where
  tells : ∀ r, Tells (s.heap r)
  listed : ∀ p r, s.connectionData p = some r → r < s.next
  fresh : ∀ r, s.next ≤ r → (s.heap r).client = none ∧ (s.heap r).conn = none
  ended : ∀ r ∈ ended, (s.heap r).client ≠ none
  origin : ∀ t r, (s.tcp t).origin = some (.client r) → (s.heap r).conn ≠ none

section Server

variable {ended : List Ref} {s s' : TCPServer} {r : Ref} {t : TcpId}

theorem attempts_new (own : Str) : Attempts [] (TCPServer.new own) := by
  constructor
  · intro r _
    exact ⟨fun _ => rfl, fun _ => rfl⟩
  · intro p r hr
    cases hr
  · intro r _
    exact ⟨rfl, rfl⟩
  · intro r hr
    cases hr
  · intro t r hr
    cases hr

/-- Changes outside the heap and the name table. -/
theorem Attempts.congr (h : Attempts ended s) (hheap : s'.heap = s.heap) (hnext : s'.next = s.next)
    (hdata : s'.connectionData = s.connectionData)
    (horigin : ∀ t r, (s'.tcp t).origin = some (.client r) →
      (s.tcp t).origin = some (.client r)) : Attempts ended s' := by
  constructor
  · rw [hheap]
    exact h.tells
  · rw [hdata, hnext]
    exact h.listed
  · rw [hheap, hnext]
    exact h.fresh
  · rw [hheap]
    exact h.ended
  · intro t r ht
    rw [hheap]
    exact h.origin t r (horigin t r ht)

/-- A `Connection` that is replaced. One that no name refers to keeps what it has. -/
theorem Attempts.setConn (h : Attempts ended s) {c : Connection} (hc : Tells c)
    (hgrows : Grows (s.heap r) c)
    (hfresh : r < s.next ∨ c.client = (s.heap r).client ∧ c.conn = (s.heap r).conn) :
    Attempts ended (s.setConn r c) := by
  rcases hgrows with ⟨hclient, hconn⟩
  constructor
  · intro r'
    rcases eq_or_ne r' r with rfl | hr
    · simpa using hc
    · simpa [hr] using h.tells r'
  · exact h.listed
  · intro r' hr'
    have hnone := h.fresh r' hr'
    rcases eq_or_ne r' r with rfl | hr
    · rcases hfresh with hlt | ⟨hsame, hsame'⟩
      · exact absurd hlt (Nat.not_lt.2 hr')
      · simpa [hsame, hsame'] using hnone
    · simpa [hr] using hnone
  · intro r' hr'
    have hsome := h.ended r' hr'
    rcases eq_or_ne r' r with rfl | hr
    · simpa using hclient hsome
    · simpa [hr] using hsome
  · intro t r' ht
    have hsome := h.origin t r' ht
    rcases eq_or_ne r' r with rfl | hr
    · simpa using hconn hsome
    · simpa [hr] using hsome

/-- A `Connection` is made for a name. -/
theorem Attempts.emplace (h : Attempts ended s) {name : Str} {c : Connection} (hc : Tells c) :
    Attempts ended (s.emplace name c) := by
  have hnone := h.fresh s.next le_rfl
  constructor
  · intro r'
    rcases eq_or_ne r' s.next with rfl | hr
    · simpa using hc
    · simpa [hr] using h.tells r'
  · intro p r hr
    rcases eq_or_ne p name with rfl | hp
    · obtain rfl : s.next = r := by simpa using hr
      simp
    · have hlt := h.listed p r (by simpa [hp] using hr)
      simpa using Nat.lt_succ_of_lt hlt
  · intro r' hr'
    have hlt : s.next < r' := hr'
    simpa [hlt.ne'] using h.fresh r' hlt.le
  · intro r' hr'
    have hsome := h.ended r' hr'
    have hr : r' ≠ s.next := by
      rintro rfl
      exact hsome hnone.1
    simpa [hr] using hsome
  · intro t r' ht
    have hsome := h.origin t r' ht
    have hr : r' ≠ s.next := by
      rintro rfl
      exact hsome hnone.2
    simpa [hr] using hsome

theorem attempts_retrieve (h : Attempts ended s) (n : ℕ) : Attempts ended (s.retrieve t n) := by
  have horigin : ∀ t', ((s.retrieve t n).tcp t').origin = (s.tcp t').origin :=
    TCPServer.tcp_field Tcp.origin rfl rfl
  refine h.congr rfl rfl rfl fun t' _ ht => ?_
  exact (horigin t').symm.trans ht

theorem attempts_setContext (h : Attempts ended s) : Attempts ended (s.setContext t r) := by
  refine h.congr rfl rfl rfl fun t' _ ht => ?_
  exact (Net.origin_setContext s t').symm.trans ht

theorem attempts_setPlane (h : Attempts ended s) (name : Str) :
    Attempts ended (s.setPlane name r) := by
  apply h.congr (by simp) _ (by simp) (by simp)
  unfold TCPServer.setPlane
  split
  · rfl
  · split
    · rfl
    · rfl

theorem attempts_handleAppUpdate (h : Attempts ended s) (m : Message.MessagePtr) :
    Attempts ended (s.handleAppUpdate t m) := by
  have hcall : Attempts ended (s.toController t (.updateApplication
      (Message.ApplicationUpdate.statusChange m) (Message.ApplicationUpdate.processId m))) :=
    h.congr rfl rfl rfl fun _ _ ht => ht
  simp only [TCPServer.handleAppUpdate]
  split
  · exact hcall.setConn (hcall.tells _) ⟨id, id⟩ (Or.inr ⟨rfl, rfl⟩)
  · apply hcall.emplace
    intro _
    exact ⟨fun _ => rfl, fun _ => rfl⟩

/-- A pass on a registered connection. -/
theorem attempts_act (h : Attempts ended s) (ha : Act t r s s') : Attempts ended s' := by
  cases ha with
  | parse c hsame =>
    rcases hsame with ⟨hstatus, _, _, hconn, _, _, hclient, _⟩
    have htells : Tells c := by
      unfold Tells
      rw [hconn, hstatus, hclient]
      exact h.tells r
    refine h.setConn htells ⟨?_, ?_⟩ (Or.inr ⟨hclient, hconn⟩)
    · rw [hclient]
      exact id
    · rw [hconn]
      exact id
  | retrieve n => exact attempts_retrieve h n
  | deliver payload call hcall => exact h.congr rfl rfl rfl fun _ _ ht => ht
  | update m => exact attempts_handleAppUpdate h m

theorem attempts_acts (h : Attempts ended s) (ha : Acts t r s s') : Attempts ended s' := by
  induction ha with
  | refl => exact h
  | tail _ hact ih => exact attempts_act ih hact

theorem tells_of_some {c : Connection} (h : c.conn = some t) : Tells c := by
  intro hnone
  rw [h] at hnone
  cases hnone

/-- A registration gives its `Connection` a TCP connection. -/
theorem attempts_handleConnection (h : Attempts ended s) {m : Message.MessagePtr}
    (hs : s.handleConnection t m = .ok s') : Attempts ended s' := by
  have hattach : ∀ (u : TCPServer) name r bs, Attempts ended u →
      Attempts ended (((u.setPlane name r).setContext t r).send t bs) := by
    intro u name r bs hu
    have hset := attempts_setContext (t := t) (r := r) (attempts_setPlane (r := r) hu name)
    exact hset.congr rfl rfl rfl fun _ _ ht => ht
  unfold TCPServer.handleConnection at hs
  simp only at hs
  split at hs
  · cases hs
  · obtain rfl := Except.ok.inj hs
    split
    · rename_i r hr
      apply hattach
      have htells : Tells ((s.heap r).setConnected t) := tells_of_some rfl
      refine h.setConn htells ⟨id, ?_⟩ (Or.inl (h.listed _ r hr))
      intro _
      simp
    · apply hattach
      exact h.emplace (tells_of_some (registered_conn _ t))

theorem attempts_handleOnce {again : Bool} (h : Attempts ended s)
    (hs : s.handleOnce t = .ok (s', again)) : Attempts ended s' := by
  cases hctx : (s.tcp t).context with
  | some r => exact attempts_acts h (acts_handleOnce hctx hs)
  | none =>
    rcases handleOnce_unregistered hctx hs with
      ⟨rfl, _⟩ | ⟨_, rfl, _⟩ | ⟨_, m, s₁, _, hcon, rfl⟩
    · exact h
    · exact attempts_retrieve h _
    · exact attempts_retrieve (attempts_handleConnection h hcon) _

theorem attempts_handleLoop {n : ℕ} (h : Attempts ended s)
    (hrun : TCPServer.handleLoop n s t = .ok s') : Attempts ended s' := by
  induction n generalizing s with
  | zero =>
    obtain rfl := Except.ok.inj hrun
    exact h
  | succ n ih =>
    simp only [TCPServer.handleLoop] at hrun
    cases honce : s.handleOnce t with
    | error x =>
      rw [honce] at hrun
      cases hrun
    | ok q =>
      rcases q with ⟨s₁, again⟩
      rw [honce] at hrun
      have h₁ := attempts_handleOnce h honce
      cases again with
      | false =>
        obtain rfl := Except.ok.inj hrun
        exact h₁
      | true => exact ih h₁ hrun

theorem attempts_receive (h : Attempts ended s) {chunk : List Byte}
    (hs : s.receive t chunk = .ok s') : Attempts ended s' := by
  have horigin : ∀ t', ((s.append t chunk).tcp t').origin = (s.tcp t').origin :=
    TCPServer.tcp_field Tcp.origin rfl rfl
  have happend : Attempts ended (s.append t chunk) := by
    refine h.congr rfl rfl rfl fun t' _ ht => ?_
    exact (horigin t').symm.trans ht
  exact attempts_handleLoop happend hs

/-- The first message that is stored starts the client. -/
theorem attempts_sendOrStore (h : Attempts ended s) (hr : r < s.next) (req : Message.MessageData)
    (payload : List Byte) : Attempts ended (s.sendOrStore r req payload) := by
  cases hconn : (s.heap r).conn with
  | none =>
    simp only [TCPServer.sendOrStore, hconn]
    have hstored : Attempts ended (s.setConn r ((s.heap r).setPending
        ((s.heap r).pendingMsgs ++ [(req.buf, payload)]))) :=
      h.setConn (h.tells r) ⟨id, id⟩ (Or.inl hr)
    split_ifs
    · refine hstored.setConn ?_ ⟨?_, id⟩ (Or.inl hr)
      · intro _
        simp
      · intro _
        simp
    · exact hstored
  | some t =>
    rw [TCPServer.sendOrStore_sent hconn]
    exact h.congr rfl rfl rfl fun _ _ ht => ht

/-- A call of the controller. -/
theorem attempts_call (h : Attempts ended s) (c : ServerCall) (hs : s.step c.event = .ok s') :
    Attempts ended s' := by
  cases c with
  | invocationResult source remote id code payload =>
    rcases invocationResult_sent hs with ⟨_, rfl⟩ | ⟨_, _, _, _, _, rfl, _, _⟩
    · exact h
    · exact h.congr rfl rfl rfl fun _ _ ht => ht
  | invocationRequest processId functionName invocationId payload =>
    cases hr : s.connectionData processId with
    | none =>
      simp only [ServerCall.event, TCPServer.step, TCPServer.invocationRequest, hr] at hs
      obtain rfl := Except.ok.inj hs
      exact h
    | some r =>
      rcases Net.call_sends hr rfl hs with ⟨req, payload, rfl⟩
      exact attempts_sendOrStore h (h.listed processId r hr) req payload
  | putMessage processId name payload =>
    cases hr : s.connectionData processId with
    | none =>
      simp only [ServerCall.event, TCPServer.step, TCPServer.putMessage, hr] at hs
      obtain rfl := Except.ok.inj hs
      exact h
    | some r =>
      rcases Net.call_sends hr rfl hs with ⟨req, payload, rfl⟩
      exact attempts_sendOrStore h (h.listed processId r hr) req payload

theorem attempts_serve {calls : List ServerCall} (h : Attempts ended s)
    (hs : serve s calls = .ok s') : Attempts ended s' := by
  induction calls generalizing s with
  | nil =>
    obtain rfl := Except.ok.inj hs
    exact h
  | cons c calls ih =>
    rcases Lts.bind_ok hs with ⟨s₁, hc, hrest⟩
    exact ih (attempts_call h c hc) hrest

theorem attempts_openTcp (h : Attempts ended s) (o : Origin)
    (ho : ∀ r, o = .client r → (s.heap r).conn ≠ none) : Attempts ended (s.openTcp t o) := by
  constructor
  · exact h.tells
  · exact h.listed
  · exact h.fresh
  · exact h.ended
  · intro t' r ht'
    rcases eq_or_ne t' t with rfl | ht
    · exact ho r (by simpa using ht')
    · exact h.origin t' r (by simpa [ht] using ht')

/-- An attempt that has ended. -/
theorem Attempts.append (h : Attempts ended s) (hr : (s.heap r).client ≠ none) :
    Attempts (ended ++ [r]) s := by
  constructor
  · exact h.tells
  · exact h.listed
  · exact h.fresh
  · intro r' hr'
    rcases List.mem_append.1 hr' with hr' | hr'
    · exact h.ended r' hr'
    · obtain rfl := List.mem_singleton.1 hr'
      exact hr
  · exact h.origin

theorem Attempts.lt_next (h : Attempts ended s) (hr : (s.heap r).client ≠ none) : r < s.next := by
  by_contra hge
  exact hr (h.fresh r (Nat.not_lt.1 hge)).1

/-- The client of a `Connection` has reached its peer, as a TCP connection. -/
theorem Attempts.reached (h : Attempts ended s) (hr : r < s.next) {c : Connection}
    (hconn : c.conn = some t) (hclient : c.client = (s.heap r).client)
    (hheap : s'.heap = Function.update s.heap r c) (hnext : s'.next = s.next)
    (hdata : s'.connectionData = s.connectionData)
    (horigin : ∀ t', (s'.tcp t').origin = ((s.openTcp t (.client r)).tcp t').origin) :
    Attempts ended s' := by
  have hset : Attempts ended (s.setConn r c) := by
    refine h.setConn (tells_of_some hconn) ⟨?_, ?_⟩ (Or.inl hr)
    · rw [hclient]
      exact id
    · intro _
      rw [hconn]
      simp
  have hopened : Attempts ended ((s.setConn r c).openTcp t (.client r)) := by
    apply attempts_openTcp hset
    intro r' hr'
    obtain rfl := Origin.client.inj hr'
    simp [hconn]
  refine hopened.congr hheap hnext hdata fun t' _ ht' => ?_
  exact (horigin t').symm.trans ht'

theorem attempts_connected (h : Attempts ended s) (hr : (s.heap r).client ≠ none)
    (hs : s.connected r t = .ok s') :
    Attempts ended s' ∧ (s'.heap r).client = (s.heap r).client := by
  have hlt := h.lt_next hr
  unfold TCPServer.connected at hs
  split at hs
  · rename_i hnone
    exact absurd hnone hr
  · rcases Lts.bind_ok hs with ⟨req, _, hs⟩
    obtain rfl := Except.ok.inj hs
    constructor
    · refine h.reached hlt (c := { s.heap r with conn := some t }) rfl rfl rfl rfl rfl fun t' => ?_
      exact Net.origin_setContext _ t'
    · simp
  · rcases Lts.bind_ok hs with ⟨req, _, hs⟩
    have hs' := (Except.ok.inj hs).symm
    generalize hs₁ : ((s.openTcp t (.client r)).send t req.buf).setConn r
      ((((s.openTcp t (.client r)).send t req.buf).heap r).setConnected t) = s₁ at hs'
    rcases TCPServer.sendPending_frame (s := s₁) (t := t) (s₁.heap r).pendingMsgs with
      ⟨hdata, hheap, htcp⟩
    have hnext := TCPServer.sendPending_next (s := s₁) (t := t) (s₁.heap r).pendingMsgs
    have hset : Attempts ended s₁ := by
      rw [← hs₁]
      exact h.reached hlt (c := (s.heap r).setConnected t) rfl rfl rfl rfl rfl fun _ => rfl
    have hflushed : Attempts ended (s₁.sendPending t (s₁.heap r).pendingMsgs) := by
      refine hset.congr hheap hnext hdata fun t' _ ht => ?_
      rwa [htcp] at ht
    have hclient : (s₁.heap r).client = (s.heap r).client := by
      rw [← hs₁]
      simp
    rw [hs']
    constructor
    · exact hflushed.setConn (hflushed.tells r) ⟨id, id⟩ (Or.inr ⟨rfl, rfl⟩)
    · simp [hheap, hclient]

/-- A callback takes the status of a `Connection` that has a TCP connection. -/
theorem attempts_callback {n : Net} (h : Attempts ended n.server) (t : TcpId) :
    Attempts ended (n.callback t) := by
  unfold Net.callback
  split
  · rename_i r horigin
    have hsome := h.origin t r horigin
    unfold TCPServer.disconnected
    split
    · exact h
    · exact h.congr rfl rfl rfl fun _ _ ht => ht
    · rename_i hclient
      have htells : Tells ((n.server.heap r).setStatus .disconnected) := by
        intro hnone
        exact absurd hnone hsome
      refine h.setConn htells ⟨id, id⟩ (Or.inl ?_)
      exact h.lt_next (by simp [hclient])
  · exact h

end Server

/-! ## Runs -/

variable {s t : Host} {q : Request}

theorem attempts_poll {ended : List Ref} {server server' : TCPServer}
    (h : Attempts ended server) (hs : server.poll = .ok server') : Attempts ended server' := by
  unfold TCPServer.poll at hs
  simp only at hs
  split at hs
  · cases hs
  · obtain rfl := Except.ok.inj hs
    have htells : Tells
        { status := .connecting, type := .controlPlane, id := none, client := some .poll } := by
      simp [Tells]
    have hmade : Attempts ended (server.emplace CONTROLPLANE_KEY _) := h.emplace htells
    exact hmade.congr rfl rfl rfl fun _ _ ht => ht

/-- What happens at the server by itself. -/
theorem attempts_server {e : TCPServer.Event} {server : TCPServer}
    (h : Attempts s.ended s.net.server) (he : s.Possible e) (hnet : s.net.Possible e)
    (hs : s.net.server.step e = .ok server) : Attempts (s.ended ++ endedBy e) server := by
  cases e with
  | poll => simpa [endedBy] using attempts_poll h hs
  | accept t =>
    obtain rfl := Except.ok.inj hs
    have hopened := attempts_openTcp (t := t) h .accepted (by simp)
    simpa [endedBy] using hopened
  | receive t chunk => simpa [endedBy] using attempts_receive h hs
  | connected r t =>
    rcases attempts_connected h he.1.1 hs with ⟨hreached, hclient⟩
    apply hreached.append
    rw [hclient]
    exact he.1.1
  | disconnected r => exact absurd hnet id
  | invocationResult _ _ _ _ _ => exact absurd he id
  | putMessage _ _ _ => exact absurd he id
  | invocationRequest _ _ _ _ => exact absurd he id

theorem attempts_event {e : TCPServer.Event} {net : Net} (h : Attempts s.ended s.net.server)
    (he : s.Possible e) (hs : s.net.step (.server e) = .ok net) :
    Attempts (s.ended ++ endedBy e) net.server := by
  have hsame : Attempts (s.ended ++ endedBy e) s.net.server := by
    cases e with
    | connected r t => exact h.append he.1.1
    | _ => simpa [endedBy] using h
  simp only [Net.step] at hs
  split_ifs at hs with hnet
  · cases hserve : Net.serve s.net.server e with
    | error x =>
      rw [hserve] at hs
      cases hs
    | ok server =>
      rw [hserve] at hs
      obtain rfl := Except.ok.inj hs
      rcases Net.serve_ok hserve with rfl | hstep
      · exact hsame
      · exact attempts_server h he hnet hstep
  · obtain rfl := Except.ok.inj hs
    exact hsame

theorem attempts_step {e : Event} (h : Attempts s.ended s.net.server) (hs : s.step e = .ok t) :
    Attempts t.ended t.net.server := by
  cases e with
  | input i =>
    rcases Lts.bind_ok hs with ⟨r, _, hs⟩
    rcases Lts.bind_ok hs with ⟨server, hserve, hs⟩
    obtain rfl := Except.ok.inj hs
    exact attempts_serve h hserve
  | server e =>
    simp only [step] at hs
    split_ifs at hs with hpossible
    · rcases Lts.bind_ok hs with ⟨net, hnet, hs⟩
      obtain rfl := Except.ok.inj hs
      exact attempts_event h hpossible hnet
    · obtain rfl := Except.ok.inj hs
      exact h
  | lost tcp =>
    simp only [step, Net.step] at hs
    split_ifs at hs
    · obtain rfl := Except.ok.inj hs
      exact attempts_callback h tcp
    · obtain rfl := Except.ok.inj hs
      exact h
  | refused r =>
    simp only [step] at hs
    split_ifs at hs with hunder
    · obtain rfl := Except.ok.inj hs
      exact h.append hunder.1
    · obtain rfl := Except.ok.inj hs
      exact h

theorem attempts_run {own : Str} {functionWorkers : ℕ} {functions : Str → Option Trigger}
    {es : List Event} (hrun : Lts.run step (new own functionWorkers functions) es = .ok s) :
    Attempts s.ended s.net.server := by
  have hstep : ∀ (s : Host) e t, Attempts s.ended s.net.server → s.step e = .ok t →
      Attempts t.ended t.net.server := fun _ _ _ => attempts_step
  exact Lts.run_always hstep (attempts_new own) hrun

/-- No attempt is made for a `Connection` that had one. -/
theorem connects_once {own : Str} {functionWorkers : ℕ} {functions : Str → Option Trigger}
    {es : List Event} (hrun : Lts.run step (new own functionWorkers functions) es = .ok s)
    {r : Ref} (hconn : (s.heap r).conn = none) (hstatus : (s.heap r).status = .disconnected) :
    (s.heap r).client = none ∧ r ∉ s.ended := by
  have h := attempts_run hrun
  have hclient := (h.tells r hconn).1 hstatus
  exact ⟨hclient, fun hr => h.ended r hr hclient⟩

/-! ## Requests -/

/-- The names fit in the header in any case; a length that is negative as an `int` does not. -/
theorem header_iff : (∃ header, q.header = .ok header) ↔ 0 ≤ toInt32 q.payload.length := by
  have hfits : ¬ (Message.ID_LENGTH < q.req.invocationId.1.length ∨
      Message.NAME_LENGTH < q.req.functionName.1.length) := by
    rintro (hid | hname)
    · exact absurd q.req.invocationId.2.1 (not_le.2 hid)
    · exact absurd q.req.functionName.2.1 (not_le.2 hname)
  have hmade := PayloadLengths.made_invoke (.ofStr q.req.functionName.1)
    (.ofStr q.req.invocationId.1) q.payload
  unfold Request.header
  rcases hmade with ⟨hrejected, e, he⟩ | ⟨haccepted, header, hok, -⟩
  · rw [he]
    constructor
    · rintro ⟨header, ⟨⟩⟩
    · intro hlen
      exact absurd (hrejected.resolve_left hfits) (not_lt.2 hlen)
  · rw [hok]
    constructor
    · intro _
      by_contra hneg
      exact haccepted (Or.inr (not_le.1 hneg))
    · intro _
      exact ⟨header, rfl⟩

/-- The worker is stored as waiting, and the server was called. -/
def asked (s : Host) (q : Request) (server : TCPServer) : Host :=
  { s with
    ctl := s.ctl.setPending
      (s.ctl.pendingMsgs.insertInvocation q.env.slot q.req.invocationId.1 q.worker)
    net := { s.net with server := server }
    replies := s.replies ++ [] }

theorem step_request (hother : ¬ s.ctl.IsSelf q.req.processId.1) :
    s.step (.input q.input) =
      (s.net.server.invocationRequest q.req.processId.1 (.ofStr q.req.functionName.1)
        (.ofStr q.req.invocationId.1) q.payload).map (s.asked q) := by
  have hhandle : s.ctl.handle q.input = .ok (s.ctl.setPending
      (s.ctl.pendingMsgs.insertInvocation q.env.slot q.req.invocationId.1 q.worker),
      [.server (.invocationRequest q.req.processId.1 q.req.functionName.1 q.req.invocationId.1
        q.payload)]) :=
    if_neg hother
  simp only [step, hhandle]
  show (serve s.net.server [.invocationRequest q.req.processId.1 q.req.functionName.1
    q.req.invocationId.1 q.payload] >>= _) = _
  unfold serve
  rw [List.foldlM_cons]
  show ((s.net.server.invocationRequest q.req.processId.1 (.ofStr q.req.functionName.1)
    (.ofStr q.req.invocationId.1) q.payload >>= pure) >>= _) = _
  rw [bind_pure]
  cases s.net.server.invocationRequest q.req.processId.1 (.ofStr q.req.functionName.1)
    (.ofStr q.req.invocationId.1) q.payload with
  | error x => rfl
  | ok server => rfl

theorem waiter_stays (server : TCPServer) : q.waiter ∈ (s.asked q server).ctl.pendingMsgs := by
  unfold asked PendingMessages.insertInvocation PendingMessages.emplace
  exact List.mem_append_right _ List.mem_cons_self

theorem not_answered (server : TCPServer) : ¬ s.Answered (s.asked q server) q := by
  rintro ⟨replies, result, payload, happend, hmem, _⟩
  have hnil : replies = [] := by simpa [asked] using happend
  rw [hnil] at hmem
  cases hmem

/-- A request that is stored finds a client, or starts it. -/
theorem sendOrStore_client {ended : List Ref} {server : TCPServer} {r : Ref}
    (h : Attempts ended server) (hconn : (server.heap r).conn = none) (req : Message.MessageData)
    (payload : List Byte) : ((server.sendOrStore r req payload).heap r).client ≠ none := by
  simp only [TCPServer.sendOrStore, hconn, TCPServer.setConn_heap, Function.update_self,
    Connection.setPending_status]
  split_ifs with hstatus
  · simp [TCPServer.connect]
  · rw [TCPServer.setConn_heap, Function.update_self]
    intro hnone
    exact hstatus ((h.tells r hconn).2 hnone)

/-- A request for a process that is known. -/
theorem asked_handled_iff (h : Attempts s.ended s.net.server) {r : Ref}
    (hr : s.net.server.connectionData q.req.processId.1 = some r) {header : Message.MessageData}
    (hheader : q.header = .ok header) :
    s.Handled (s.asked q (s.net.server.sendOrStore r header q.payload)) q ↔
      s.Reaches q.req.processId.1 := by
  have hsame : ∀ {r'}, s.net.server.connectionData q.req.processId.1 = some r' → r' = r :=
    fun hr' => Option.some.inj (hr'.symm.trans hr)
  cases hconn : (s.heap r).conn with
  | none =>
    rcases TCPServer.sendOrStore_stored hconn header q.payload with ⟨_, _, _, hpending⟩
    constructor
    · rintro (⟨r', tcp, _, hr', _, hsome, _⟩ | ⟨r', _, hr', _, _, hunder⟩ | hanswered)
      · obtain rfl := hsame hr'
        cases hconn.symm.trans hsome
      · obtain rfl := hsame hr'
        refine ⟨r', hr, fun tcp hsome => ?_, fun _ => hunder.2⟩
        cases hconn.symm.trans hsome
      · exact absurd hanswered (not_answered _)
    · rintro ⟨r', hr', _, hended⟩
      obtain rfl := hsame hr'
      refine Or.inr (Or.inl ⟨r', header, hr, hheader, hpending, ?_, hended hconn⟩)
      exact sendOrStore_client h hconn header q.payload
  | some tcp =>
    have hsent := TCPServer.sendOrStore_sent hconn header q.payload
    constructor
    · rintro (⟨r', tcp', _, hr', _, hsome, hopen, _⟩ | ⟨r', _, hr', _, hpending, _⟩ | hanswered)
      · obtain rfl := hsame hr'
        refine ⟨r', hr, fun tcp'' hsome' => ?_, fun hnone => ?_⟩
        · obtain rfl := Option.some.inj (hsome.symm.trans hsome')
          exact hopen
        · cases hconn.symm.trans hnone
      · -- what is sent is not stored
        obtain rfl := hsame hr'
        rw [hsent] at hpending
        have hlength := congrArg List.length hpending
        simp [asked, heap] at hlength
      · exact absurd hanswered (not_answered _)
    · rintro ⟨r', hr', hopen, _⟩
      obtain rfl := hsame hr'
      refine Or.inl ⟨r', tcp, header, hr, hheader, hconn, hopen tcp hconn, ?_⟩
      rw [hsent]
      simp [asked]

/-- A request for a process that is not known is dropped. -/
theorem unknown_dropped (hr : s.net.server.connectionData q.req.processId.1 = none) :
    ¬ s.Handled (s.asked q s.net.server) q := by
  rintro (⟨r, _, _, hr', _⟩ | ⟨r, _, hr', _⟩ | hanswered)
  · cases hr.symm.trans hr'
  · cases hr.symm.trans hr'
  · exact not_answered _ hanswered

theorem handled_iff (h : Attempts s.ended s.net.server)
    (hother : ¬ s.ctl.IsSelf q.req.processId.1) :
    (∃ t, s.step (.input q.input) = .ok t ∧ s.Handled t q) ↔
      s.Reaches q.req.processId.1 ∧ 0 ≤ toInt32 q.payload.length := by
  rw [step_request hother, ← header_iff]
  cases hr : s.net.server.connectionData q.req.processId.1 with
  | none =>
    constructor
    · rintro ⟨t, hstep, hhandled⟩
      unfold TCPServer.invocationRequest at hstep
      rw [hr] at hstep
      obtain rfl := Except.ok.inj hstep
      exact absurd hhandled (unknown_dropped hr)
    · rintro ⟨⟨r, hr', _⟩, _⟩
      cases hr.symm.trans hr'
  | some r =>
    rw [TCPServer.invocationRequest_eq hr]
    show (∃ t, (q.header.map _).map _ = .ok t ∧ _) ↔ _
    cases hheader : q.header with
    | error x =>
      constructor
      · rintro ⟨t, hstep, _⟩
        cases hstep
      · rintro ⟨_, header, hok⟩
        cases hok
    | ok header =>
      rw [← asked_handled_iff h hr hheader]
      constructor
      · rintro ⟨t, hstep, hhandled⟩
        obtain rfl := Except.ok.inj hstep
        exact ⟨hhandled, header, rfl⟩
      · rintro ⟨hhandled, _⟩
        exact ⟨_, rfl, hhandled⟩

/-- **Requests to other processes.** In every reachable state, a request of a worker to another
process is written to an open connection to it, stored with an attempt to reach it under way, or
answered, exactly if the process is known, its connection is open, no attempt has ended without
one, and the length of the payload is no negative `int`. The worker is left waiting in any
case. -/
theorem invoke_handled_iff {own : Str} {functionWorkers : ℕ} {functions : Str → Option Trigger}
    {es : List Event} {s : Host}
    (hrun : Lts.run step (new own functionWorkers functions) es = .ok s) (q : Request)
    (hother : ¬ s.ctl.IsSelf q.req.processId.1) :
    ((∃ t, s.step (.input q.input) = .ok t ∧ s.Handled t q) ↔
      s.Reaches q.req.processId.1 ∧ 0 ≤ toInt32 q.payload.length) ∧
      ∀ t, s.step (.input q.input) = .ok t → q.waiter ∈ t.ctl.pendingMsgs := by
  refine ⟨handled_iff (attempts_run hrun) hother, ?_⟩
  intro t hstep
  rw [step_request hother] at hstep
  cases hserver : s.net.server.invocationRequest q.req.processId.1 (.ofStr q.req.functionName.1)
    (.ofStr q.req.invocationId.1) q.payload with
  | error x =>
    rw [hserver] at hstep
    cases hstep
  | ok server =>
    rw [hserver] at hstep
    obtain rfl := Except.ok.inj hstep
    exact waiter_stays server

/-- Worker 0 invokes the function `f` of the process `p`. -/
def sampleRequest : Request where
  worker := 0
  req := ⟨⟨str ['p'], by decide⟩, ⟨str ['k'], by decide⟩, ⟨str ['f'], by decide⟩⟩
  payload := [1, 2]
  env := {}

/-- The process has registered: the request is written to its connection. -/
theorem registered_process_written :
    ∃ s t, Lts.run step (new (str ['q']) 1 fun _ => none)
        [.server (.accept 0), .server (.receive 0 (registrationHeader (str ['p'])))] = .ok s ∧
      s.step (.input sampleRequest.input) = .ok t ∧ s.Handled t sampleRequest ∧
      sampleRequest.waiter ∈ t.ctl.pendingMsgs := by
  have hrun := Lts.run_test step (new (str ['q']) 1 fun _ => none)
    [.server (.accept 0), .server (.receive 0 (registrationHeader (str ['p'])))]
    (fun s => s.net.server.connectionData (str ['p']) = some 0 ∧ (s.heap 0).conn = some 0 ∧
      s.net.Open 0 ∧ ¬ s.ctl.IsSelf (str ['p'])) (by decide +kernel)
  rcases hrun with ⟨s, hs, hdata, hconn, hopen, hother⟩
  rcases invoke_handled_iff hs sampleRequest hother with ⟨hiff, hwaits⟩
  have hreaches : s.Reaches sampleRequest.req.processId.1 := by
    refine ⟨0, hdata, fun tcp htcp => ?_, fun hnone => ?_⟩
    · obtain rfl : 0 = tcp := Option.some.inj (hconn.symm.trans htcp)
      exact hopen
    · cases hconn.symm.trans hnone
  rcases hiff.2 ⟨hreaches, by decide⟩ with ⟨t, hstep, hhandled⟩
  exact ⟨s, t, hs, hstep, hhandled, hwaits t hstep⟩

/-- The process is not known: the request is dropped, and the worker waits. -/
theorem unknown_process_dropped :
    ∃ t, (new (str ['q']) 1 fun _ => none).step (.input sampleRequest.input) = .ok t ∧
      ¬ (new (str ['q']) 1 fun _ => none).Handled t sampleRequest ∧
      sampleRequest.waiter ∈ t.ctl.pendingMsgs := by
  have hother : ¬ (new (str ['q']) 1 fun _ => none).ctl.IsSelf sampleRequest.req.processId.1 := by
    decide
  refine ⟨_, step_request hother, ?_, waiter_stays _⟩
  exact unknown_dropped rfl

end Host

end Praas.Process
