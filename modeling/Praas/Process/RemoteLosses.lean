import Praas.Process.RemoteIdentity
import Praas.Process.RemoteSends

/-! # Connections that are lost

The server with the TCP connections that are gone. The server's own callback for a
connection that it has accepted does nothing when it is lost, that of `_connect` sets the
status, and none of them resets `conn`.

* `Live`: a `Connection` refers to a TCP connection only while its status is CONNECTED and
  the TCP connection is open.
* `Reconnects`: without one, a call is stored and a connection is on its way.
* `reconnects_iff`: a run keeps both exactly if no TCP connection is lost that is in use,
  and the control plane is not reached by the client of `poll`.
-/

namespace Praas.Process.Remote

open Message

/-- The server, and the TCP connections that were lost. -/
structure Net where
  server : TCPServer
  closed : List TcpId := []

namespace Net

inductive Event where
  | server (e : TCPServer.Event)
  | lost (t : TcpId)

def new (own : Str) : Net where
  server := TCPServer.new own

def Open (s : Net) (t : TcpId) : Prop := (s.server.tcp t).origin ≠ none ∧ t ∉ s.closed

instance (s : Net) (t : TcpId) : Decidable (s.Open t) := inferInstanceAs (Decidable (_ ∧ _))

/-- TCP connections are new when they are opened, and bytes arrive on those that are open.
What is lost is an event of its own. -/
def Possible (s : Net) : TCPServer.Event → Prop
  | .accept t => (s.server.tcp t).origin = none
  | .connected _ t => (s.server.tcp t).origin = none
  | .receive t _ => s.Open t
  | .disconnected _ => False
  | _ => True

instance (s : Net) : DecidablePred s.Possible
  | .accept _ => inferInstanceAs (Decidable (_ = _))
  | .connected _ _ => inferInstanceAs (Decidable (_ = _))
  | .receive _ _ => inferInstanceAs (Decidable (s.Open _))
  | .disconnected _ => isFalse id
  | .poll => isTrue trivial
  | .invocationResult .. => isTrue trivial
  | .putMessage .. => isTrue trivial
  | .invocationRequest .. => isTrue trivial

/-- What a call of the controller raises leaves the server as it was; what a callback raises
ends the run. -/
def serve (server : TCPServer) (e : TCPServer.Event) : Except Fault TCPServer :=
  match e, server.step e with
  | .putMessage .., .error _ => .ok server
  | .invocationRequest .., .error _ => .ok server
  | .invocationResult .., .error (.invalidArgument ..) => .ok server
  | _, r => r

/-- The callback for a connection that is lost: that of the client, if it was its own. -/
def callback (s : Net) (t : TcpId) : TCPServer :=
  match (s.server.tcp t).origin with
  | some (.client r) => s.server.disconnected r
  | _ => s.server

def step (s : Net) : Event → Except Fault Net
  | .server e =>
    if s.Possible e then (serve s.server e).map fun server => { s with server := server }
    else .ok s
  | .lost t =>
    if s.Open t then .ok { server := s.callback t, closed := t :: s.closed } else .ok s

/-- Whom a call sends a message to. -/
def recipient : TCPServer.Event → Option Str
  | .putMessage processId _ _ => some processId
  | .invocationRequest processId _ _ _ => some processId
  | _ => none

/-- What a `Connection` refers to is connected and open. -/
def Live (s : Net) : Prop :=
  ∀ r t, (s.server.heap r).conn = some t →
    (s.server.heap r).status = .connected ∧ s.Open t

/-- A call for a process without an open connection is stored, and a connection to it is on
its way. -/
def Reconnects (s : Net) : Prop :=
  ∀ p r, s.server.connectionData p = some r →
    (∀ t, (s.server.heap r).conn = some t → ¬ s.Open t) →
    ∀ e server, recipient e = some p → s.server.step e = .ok server →
      server.sent = s.server.sent ∧
      (∃ m, (server.heap r).pendingMsgs = (s.server.heap r).pendingMsgs ++ [m]) ∧
      (server.heap r).status = .connecting

/-- What is lost is not in use, and it is not the client of `poll` that reaches its peer
(whose callback raises before it does anything if the name does not fit). -/
def Spared (s : Net) : Event → Prop
  | .lost t =>
    s.Open t →
      (∀ r, (s.server.heap r).conn ≠ some t) ∧
      ∀ r, (s.server.tcp t).origin = some (.client r) →
        (s.server.heap r).client = some .connect → (s.server.heap r).conn = none
  | .server (.connected r t) =>
    (s.server.tcp t).origin = none → (s.server.heap r).client = some .poll →
      s.server.processId.length ≤ NAME_LENGTH → (s.server.heap r).status = .connected
  | _ => True

/-! ## What the server preserves -/

/-- The status of every `Connection` agrees with what it refers to. -/
structure Sound (closed : List TcpId) (s : TCPServer) : Prop where
  conn : ∀ r t, (s.heap r).conn = some t →
    (s.heap r).status = .connected ∧ (s.tcp t).origin ≠ none ∧ t ∉ closed
  status : ∀ r, (s.heap r).status = .connected → (s.heap r).conn ≠ none
  closed : ∀ t ∈ closed, (s.tcp t).origin ≠ none

variable {closed : List TcpId} {s s' : TCPServer} {r : Ref} {t : TcpId}

theorem sound_new (own : Str) : Sound [] (TCPServer.new own) := by
  constructor
  · intro r t ht
    cases ht
  · intro r hr
    cases hr
  · simp

/-- Changes outside the heap, with no connection forgotten. -/
theorem Sound.congr (h : Sound closed s) (hheap : s'.heap = s.heap)
    (htcp : ∀ t, (s.tcp t).origin ≠ none → (s'.tcp t).origin ≠ none) : Sound closed s' := by
  constructor
  · intro r t ht
    rw [hheap] at ht ⊢
    rcases h.conn r t ht with ⟨hstatus, horigin, hopen⟩
    exact ⟨hstatus, htcp t horigin, hopen⟩
  · rw [hheap]
    exact h.status
  · intro t ht
    exact htcp t (h.closed t ht)

/-- The status of `c` agrees with what it refers to. -/
def Agrees (closed : List TcpId) (s : TCPServer) (c : Connection) : Prop :=
  (∀ t, c.conn = some t →
    c.status = .connected ∧ (s.tcp t).origin ≠ none ∧ t ∉ closed) ∧
  (c.status = .connected → c.conn ≠ none)

theorem Sound.agrees (h : Sound closed s) (r : Ref) : Agrees closed s (s.heap r) :=
  ⟨h.conn r, h.status r⟩

/-- A `Connection` that is replaced. -/
theorem Sound.update (h : Sound closed s) {c : Connection} (hc : Agrees closed s c)
    (hheap : s'.heap = Function.update s.heap r c) (htcp : s'.tcp = s.tcp) :
    Sound closed s' := by
  constructor
  · intro r' t ht
    rw [hheap] at ht ⊢
    rw [htcp]
    rcases eq_or_ne r' r with rfl | hr
    · rw [Function.update_self] at ht ⊢
      exact hc.1 t ht
    · rw [Function.update_of_ne hr] at ht ⊢
      exact h.conn r' t ht
  · intro r' hr'
    rw [hheap] at hr' ⊢
    rcases eq_or_ne r' r with rfl | hr
    · rw [Function.update_self] at hr' ⊢
      exact hc.2 hr'
    · rw [Function.update_of_ne hr] at hr' ⊢
      exact h.status r' hr'
  · rw [htcp]
    exact h.closed

theorem Sound.setConn (h : Sound closed s) {c : Connection} (hc : Agrees closed s c) :
    Sound closed (s.setConn r c) :=
  h.update hc rfl rfl

theorem Sound.emplace (h : Sound closed s) {name : Str} {c : Connection}
    (hc : Agrees closed s c) : Sound closed (s.emplace name c) :=
  h.update hc rfl rfl

/-- A `Connection` with nothing to refer to, and not connected. -/
theorem agrees_of_none {c : Connection} (hconn : c.conn = none) (hstatus : c.status ≠ .connected) :
    Agrees closed s c := by
  constructor
  · intro t ht
    rw [hconn] at ht
    cases ht
  · intro hc
    exact absurd hc hstatus

theorem sound_handleAppUpdate (h : Sound closed s) (m : MessagePtr) :
    Sound closed (s.handleAppUpdate t m) := by
  have hcall : Sound closed (s.toController t (.updateApplication
      (ApplicationUpdate.statusChange m) (ApplicationUpdate.processId m))) :=
    h.congr rfl (fun _ ht => ht)
  simp only [TCPServer.handleAppUpdate]
  split
  · exact hcall.setConn (hcall.agrees _)
  · exact hcall.emplace (agrees_of_none rfl (by simp))

/-- A pass on a registered connection. -/
theorem sound_act (h : Sound closed s) (ha : Act t r s s') :
    Sound closed s' ∧ ∀ t', (s'.tcp t').origin = (s.tcp t').origin := by
  cases ha with
  | parse c hsame =>
    rcases hsame with ⟨hstatus, _, _, hconn, _⟩
    refine ⟨h.setConn ?_, fun _ => rfl⟩
    constructor
    · intro t' ht'
      rw [hstatus]
      exact h.conn r t' (hconn.symm.trans ht')
    · rw [hstatus, hconn]
      exact h.status r
  | retrieve n =>
    have horigin : ∀ t', ((s.retrieve t n).tcp t').origin = (s.tcp t').origin :=
      TCPServer.tcp_field Tcp.origin rfl rfl
    exact ⟨h.congr rfl (fun t' ht' => by rwa [horigin]), horigin⟩
  | deliver payload call hcall => exact ⟨h.congr rfl (fun _ ht => ht), fun _ => rfl⟩
  | update m =>
    refine ⟨sound_handleAppUpdate h m, ?_⟩
    intro t'
    simp only [TCPServer.handleAppUpdate]
    split
    · rfl
    · rfl

theorem sound_acts (h : Sound closed s) (ha : Acts t r s s') :
    Sound closed s' ∧ ∀ t', (s'.tcp t').origin = (s.tcp t').origin := by
  induction ha with
  | refl => exact ⟨h, fun _ => rfl⟩
  | tail _ hact ih =>
    rcases sound_act ih.1 hact with ⟨hsound, horigin⟩
    exact ⟨hsound, fun t' => (horigin t').trans (ih.2 t')⟩

theorem agrees_connected {c : Connection} (hconn : c.conn = some t)
    (hstatus : c.status = .connected) (hopen : (s.tcp t).origin ≠ none) (hclosed : t ∉ closed) :
    Agrees closed s c := by
  constructor
  · intro t' ht'
    obtain rfl : t = t' := Option.some.inj (hconn.symm.trans ht')
    exact ⟨hstatus, hopen, hclosed⟩
  · intro _
    rw [hconn]
    simp

theorem registered_status (name : Str) (t : TcpId) :
    (TCPServer.registered name t).status = .connected := by
  unfold TCPServer.registered
  split_ifs
  · rfl
  · rfl
  · rfl

theorem origin_setContext (s : TCPServer) (t' : TcpId) :
    ((s.setContext t r).tcp t').origin = (s.tcp t').origin :=
  TCPServer.tcp_field Tcp.origin (c := { s.tcp t with context := some r }) rfl rfl t'

/-- A registration on a connection that is open. -/
theorem sound_handleConnection (h : Sound closed s) (hopen : (s.tcp t).origin ≠ none)
    (hclosed : t ∉ closed) {m : MessagePtr} (hs : s.handleConnection t m = .ok s') :
    Sound closed s' ∧ ∀ t', (s'.tcp t').origin = (s.tcp t').origin := by
  -- the end of a registration leaves connections and origins alone
  have hattach : ∀ (u : TCPServer) name r bs, Sound closed u → u.tcp = s.tcp →
      Sound closed (((u.setPlane name r).setContext t r).send t bs) ∧
      ∀ t', ((((u.setPlane name r).setContext t r).send t bs).tcp t').origin =
        (s.tcp t').origin := by
    intro u name r bs hu htcp
    have horigin : ∀ t', ((((u.setPlane name r).setContext t r).send t bs).tcp t').origin =
        (u.tcp t').origin := by
      intro t'
      rw [← TCPServer.setPlane_tcp u name r]
      exact origin_setContext (u.setPlane name r) t'
    have hheap : (((u.setPlane name r).setContext t r).send t bs).heap = u.heap := by
      funext r'
      simp
    refine ⟨hu.congr hheap (fun t' ht' => by rwa [horigin]), ?_⟩
    intro t'
    rw [horigin, htcp]
  unfold TCPServer.handleConnection at hs
  simp only at hs
  split at hs
  · cases hs
  · obtain rfl := Except.ok.inj hs
    split
    · apply hattach _ _ _ _ (h.setConn _) rfl
      exact agrees_connected rfl rfl hopen hclosed
    · apply hattach _ _ _ _ (h.emplace _) rfl
      exact agrees_connected (registered_conn _ t) (registered_status _ t) hopen hclosed

theorem sound_handleOnce {again : Bool} (h : Sound closed s) (hopen : (s.tcp t).origin ≠ none)
    (hclosed : t ∉ closed) (hs : s.handleOnce t = .ok (s', again)) :
    Sound closed s' ∧ ∀ t', (s'.tcp t').origin = (s.tcp t').origin := by
  have hretrieve : ∀ u : TCPServer, Act t 0 u (u.retrieve t BUF_SIZE) := fun u => .retrieve u _
  cases hctx : (s.tcp t).context with
  | some r => exact sound_acts h (acts_handleOnce hctx hs)
  | none =>
    rcases handleOnce_unregistered hctx hs with
      ⟨rfl, _⟩ | ⟨_, rfl, _⟩ | ⟨_, m, s₁, _, hcon, rfl⟩
    · exact ⟨h, fun _ => rfl⟩
    · exact sound_act h (hretrieve s)
    · rcases sound_handleConnection h hopen hclosed hcon with ⟨hsound, horigin⟩
      rcases sound_act hsound (hretrieve s₁) with ⟨hsound', horigin'⟩
      exact ⟨hsound', fun t' => (horigin' t').trans (horigin t')⟩

theorem sound_handleLoop {n : ℕ} (h : Sound closed s) (hopen : (s.tcp t).origin ≠ none)
    (hclosed : t ∉ closed) (hrun : TCPServer.handleLoop n s t = .ok s') : Sound closed s' := by
  induction n generalizing s with
  | zero =>
    obtain rfl := Except.ok.inj hrun
    exact h
  | succ n ih =>
    simp only [TCPServer.handleLoop] at hrun
    cases honce : s.handleOnce t with
    | error x =>
      rw [honce] at hrun
      cases hrun
    | ok q =>
      rcases q with ⟨s₁, again⟩
      rw [honce] at hrun
      rcases sound_handleOnce h hopen hclosed honce with ⟨hsound, horigin⟩
      cases again with
      | false =>
        obtain rfl := Except.ok.inj hrun
        exact hsound
      | true => exact ih hsound (by rwa [horigin]) hrun

theorem sound_receive (h : Sound closed s) (hopen : (s.tcp t).origin ≠ none)
    (hclosed : t ∉ closed) {chunk : List Byte} (hs : s.receive t chunk = .ok s') :
    Sound closed s' := by
  have horigin : ∀ t', ((s.append t chunk).tcp t').origin = (s.tcp t').origin :=
    TCPServer.tcp_field Tcp.origin rfl rfl
  have happend : Sound closed (s.append t chunk) :=
    h.congr rfl (fun t' ht' => by rwa [horigin])
  exact sound_handleLoop happend (by rwa [horigin]) hclosed hs

theorem sound_openTcp (h : Sound closed s) (o : Origin) : Sound closed (s.openTcp t o) := by
  have hheap : (s.openTcp t o).heap = s.heap := rfl
  apply h.congr hheap
  intro t' ht'
  rcases eq_or_ne t' t with rfl | ht
  · simp
  · simpa [ht] using ht'

theorem sound_setContext (h : Sound closed s) : Sound closed (s.setContext t r) :=
  h.congr rfl (fun t' ht' => by rwa [origin_setContext])

/-- Storing a message and connecting leave connected what was connected. -/
theorem sound_sendOrStore (h : Sound closed s) (req : MessageData) (payload : List Byte) :
    Sound closed (s.sendOrStore r req payload) := by
  cases hconn : (s.heap r).conn with
  | none =>
    simp only [TCPServer.sendOrStore, hconn]
    have hstored : Sound closed (s.setConn r ((s.heap r).setPending
        ((s.heap r).pendingMsgs ++ [(req.buf, payload)]))) :=
      h.setConn (h.agrees r)
    split_ifs
    · apply hstored.setConn
      apply agrees_of_none
      · simp [hconn]
      · simp
    · exact hstored
  | some t =>
    rw [TCPServer.sendOrStore_sent hconn]
    exact h.congr rfl (fun _ ht => ht)

theorem sound_poll (h : Sound closed s) (hs : s.poll = .ok s') : Sound closed s' := by
  unfold TCPServer.poll at hs
  simp only at hs
  split at hs
  · cases hs
  · obtain rfl := Except.ok.inj hs
    exact h.update (agrees_of_none rfl (by simp)) rfl rfl

/-- A client reaches its peer on a new connection. -/
theorem sound_connected (h : Sound closed s) (hfresh : (s.tcp t).origin = none)
    (hpoll : (s.heap r).client = some .poll → (s.heap r).status = .connected)
    (hs : s.connected r t = .ok s') : Sound closed s' := by
  have hclosed : t ∉ closed := by
    intro ht
    exact h.closed t ht hfresh
  have hopen : ((s.openTcp t (.client r)).tcp t).origin ≠ none := by simp
  unfold TCPServer.connected at hs
  split at hs
  · obtain rfl := Except.ok.inj hs
    exact h
  · -- a client for a poll registers and leaves the record as it is
    rename_i hclient
    rcases Lts.bind_ok hs with ⟨req, _, hs⟩
    obtain rfl := Except.ok.inj hs
    have hsent : Sound closed ((s.openTcp t (.client r)).send t req.buf) :=
      (sound_openTcp h _).congr rfl (fun _ ht => ht)
    have hopen' : ((((s.openTcp t (.client r)).send t req.buf).setContext t r).tcp t).origin ≠
        none := by simp
    exact (sound_setContext hsent).setConn
      (agrees_connected rfl (hpoll hclient) hopen' hclosed)
  · rcases Lts.bind_ok hs with ⟨req, _, hs⟩
    have hs' := (Except.ok.inj hs).symm
    -- the record is connected first, then what was stored is sent
    generalize hs₁ : ((s.openTcp t (.client r)).send t req.buf).setConn r
      ((((s.openTcp t (.client r)).send t req.buf).heap r).setConnected t) = s₁ at hs'
    have hsent : Sound closed ((s.openTcp t (.client r)).send t req.buf) :=
      (sound_openTcp h _).congr rfl (fun _ ht => ht)
    have hset : Sound closed s₁ := by
      rw [← hs₁]
      exact hsent.setConn (agrees_connected rfl rfl hopen hclosed)
    rcases TCPServer.sendPending_frame (s := s₁) (t := t) (s₁.heap r).pendingMsgs with
      ⟨_, hheap, htcp⟩
    have hflushed : Sound closed (s₁.sendPending t (s₁.heap r).pendingMsgs) :=
      hset.congr hheap (fun t' ht' => by rwa [htcp])
    rw [hs']
    exact hflushed.setConn (hflushed.agrees r)

/-- A call for a process that is known, which does not raise. -/
theorem call_sends {e : TCPServer.Event} {p : Str} (hr : s.connectionData p = some r)
    (he : recipient e = some p) (hs : s.step e = .ok s') :
    ∃ req payload, s' = s.sendOrStore r req payload := by
  have hmap : ∀ (header : Except Fault MessageData) payload,
      (header.map fun req => s.sendOrStore r req payload) = .ok s' →
      ∃ req payload, s' = s.sendOrStore r req payload := by
    intro header payload hok
    cases header with
    | error x => cases hok
    | ok req => exact ⟨req, payload, (Except.ok.inj hok).symm⟩
  cases e with
  | putMessage processId name payload =>
    obtain rfl : processId = p := Option.some.inj he
    exact hmap _ payload ((TCPServer.putMessage_eq hr name payload).symm.trans hs)
  | invocationRequest processId functionName invocationId payload =>
    obtain rfl : processId = p := Option.some.inj he
    exact hmap _ payload
      ((TCPServer.invocationRequest_eq hr functionName invocationId payload).symm.trans hs)
  | _ => cases he

/-- The name of the process fits into the registration that the callback of a client
sends. -/
theorem connected_ok {client : Client} (hclient : (s.heap r).client = some client)
    (hs : s.connected r t = .ok s') : s.processId.length ≤ NAME_LENGTH := by
  have hreq : ∃ req, ProcessConnection.setProcessName (.new .processConnection)
      (.ofStr s.processId) = .ok req := by
    unfold TCPServer.connected at hs
    rw [hclient] at hs
    cases client with
    | poll =>
      rcases Lts.bind_ok hs with ⟨req, hreq, _⟩
      exact ⟨req, hreq⟩
    | connect =>
      rcases Lts.bind_ok hs with ⟨req, hreq, _⟩
      exact ⟨req, hreq⟩
  rcases hreq with ⟨req, hreq⟩
  unfold ProcessConnection.setProcessName MessageData.setStr at hreq
  split_ifs at hreq with hlong
  exact Nat.le_of_not_lt hlong

/-- A step of the server that the condition allows. -/
theorem sound_server {n : Net} {e : TCPServer.Event} (h : Sound n.closed n.server)
    (he : n.Spared (.server e)) (hpossible : n.Possible e) (hs : n.server.step e = .ok s') :
    Sound n.closed s' := by
  cases e with
  | poll => exact sound_poll h hs
  | accept t =>
    obtain rfl := Except.ok.inj hs
    exact sound_openTcp h _
  | receive t chunk => exact sound_receive h hpossible.1 hpossible.2 hs
  | connected r t =>
    apply sound_connected h hpossible _ hs
    intro hpoll
    exact he hpossible hpoll (connected_ok hpoll hs)
  | disconnected r => exact absurd hpossible id
  | invocationResult source remote id code payload =>
    rcases invocationResult_sent hs with ⟨_, rfl⟩ | ⟨_, _, _, _, _, rfl, _, _⟩
    · exact h
    · exact h.congr rfl (fun _ ht => ht)
  | putMessage processId name payload =>
    cases hr : n.server.connectionData processId with
    | none =>
      simp only [TCPServer.step, TCPServer.putMessage, hr] at hs
      obtain rfl := Except.ok.inj hs
      exact h
    | some r =>
      rcases call_sends hr rfl hs with ⟨req, payload, rfl⟩
      exact sound_sendOrStore h req payload
  | invocationRequest processId functionName invocationId payload =>
    cases hr : n.server.connectionData processId with
    | none =>
      simp only [TCPServer.step, TCPServer.invocationRequest, hr] at hs
      obtain rfl := Except.ok.inj hs
      exact h
    | some r =>
      rcases call_sends hr rfl hs with ⟨req, payload, rfl⟩
      exact sound_sendOrStore h req payload

/-- A call that raises leaves the server as it was. -/
theorem serve_ok {e : TCPServer.Event} (hs : serve s e = .ok s') :
    s' = s ∨ s.step e = .ok s' := by
  unfold serve at hs
  split at hs
  · exact Or.inl (Except.ok.inj hs).symm
  · exact Or.inl (Except.ok.inj hs).symm
  · exact Or.inl (Except.ok.inj hs).symm
  · exact Or.inr hs

/-- The callback changes no more than the status of the `Connection` of the client. -/
theorem callback_frame (n : Net) (t : TcpId) :
    (n.callback t).tcp = n.server.tcp ∧
      ∀ r, ((n.callback t).heap r).conn = (n.server.heap r).conn := by
  unfold callback
  split
  · rename_i r _
    unfold TCPServer.disconnected
    split
    · exact ⟨rfl, fun _ => rfl⟩
    · exact ⟨rfl, fun _ => rfl⟩
    · refine ⟨rfl, ?_⟩
      intro r'
      rcases eq_or_ne r' r with rfl | hr
      · simp
      · simp [hr]
  · exact ⟨rfl, fun _ => rfl⟩

/-- A connection is lost that is not in use. -/
theorem sound_lost {n : Net} (h : Sound n.closed n.server) (hopen : n.Open t)
    (hunused : ∀ r, (n.server.heap r).conn ≠ some t)
    (hclient : ∀ r, (n.server.tcp t).origin = some (.client r) →
      (n.server.heap r).client = some .connect → (n.server.heap r).conn = none) :
    Sound (t :: n.closed) (n.callback t) := by
  -- the callback disconnects a client that is not connected in any case
  have hcallback : Sound n.closed (n.callback t) := by
    unfold callback
    split
    · rename_i r horigin
      unfold TCPServer.disconnected
      split
      · exact h
      · exact h.congr rfl (fun _ ht => ht)
      · rename_i hconnect
        apply h.setConn
        apply agrees_of_none
        · exact hclient r horigin hconnect
        · simp
    · exact h
  rcases callback_frame n t with ⟨htcp, hconn⟩
  constructor
  · intro r t' ht'
    rcases hcallback.conn r t' ht' with ⟨hstatus, horigin, hnot⟩
    refine ⟨hstatus, horigin, ?_⟩
    intro hmem
    rcases List.mem_cons.1 hmem with rfl | hmem
    · exact hunused r ((hconn r).symm.trans ht')
    · exact hnot hmem
  · exact hcallback.status
  · intro t' ht'
    rcases List.mem_cons.1 ht' with rfl | ht'
    · rw [htcp]
      exact hopen.1
    · exact hcallback.closed t' ht'

/-! ## Runs -/

variable {n n' : Net} {e : Event}

theorem sound_step (h : Sound n.closed n.server) (he : n.Spared e) (hs : n.step e = .ok n') :
    Sound n'.closed n'.server := by
  cases e with
  | server e =>
    simp only [step] at hs
    split_ifs at hs with hpossible
    · cases hserve : serve n.server e with
      | error x =>
        rw [hserve] at hs
        cases hs
      | ok server =>
        rw [hserve] at hs
        obtain rfl := Except.ok.inj hs
        rcases serve_ok hserve with rfl | hstep
        · exact h
        · have hsound := sound_server h he hpossible hstep
          exact hsound
    · obtain rfl := Except.ok.inj hs
      exact h
  | lost t =>
    simp only [step] at hs
    split_ifs at hs with hopen
    · obtain rfl := Except.ok.inj hs
      rcases he hopen with ⟨hunused, hclient⟩
      exact sound_lost h hopen hunused hclient
    · obtain rfl := Except.ok.inj hs
      exact h

theorem live_of_sound (h : Sound n.closed n.server) : n.Live := h.conn

/-- A message that is stored for a process that is not connected. -/
theorem sendOrStore_connecting (hconn : (s.heap r).conn = none)
    (hstatus : (s.heap r).status ≠ .connected) (req : MessageData) (payload : List Byte) :
    ((s.sendOrStore r req payload).heap r).status = .connecting := by
  simp only [TCPServer.sendOrStore, hconn, TCPServer.setConn_heap, Function.update_self,
    Connection.setPending_status]
  split_ifs with hdisconnected
  · simp [TCPServer.connect]
  · simp only [TCPServer.setConn_heap, Function.update_self, Connection.setPending_status]
    cases hs : (s.heap r).status with
    | disconnected => exact absurd hs hdisconnected
    | connecting => rfl
    | connected => exact absurd hs hstatus

theorem reconnects_of_sound (h : Sound n.closed n.server) : n.Reconnects := by
  intro p r hr hunreachable e server he hs
  have hconn : (n.server.heap r).conn = none := by
    cases hconn : (n.server.heap r).conn with
    | none => rfl
    | some t => exact absurd (h.conn r t hconn).2 (hunreachable t hconn)
  rcases call_sends hr he hs with ⟨req, payload, rfl⟩
  rcases TCPServer.sendOrStore_stored hconn req payload with ⟨hsent, _, _, hpending⟩
  refine ⟨hsent, ⟨_, hpending⟩, ?_⟩
  apply sendOrStore_connecting hconn
  intro hstatus
  exact h.status r hstatus hconn

/-- The callback of `poll` leaves the status as it was. -/
theorem connected_poll (hpoll : (s.heap r).client = some .poll)
    (hname : s.processId.length ≤ NAME_LENGTH) :
    ∃ s', s.connected r t = .ok s' ∧ (s'.heap r).conn = some t ∧
      (s'.heap r).status = (s.heap r).status := by
  have hreq : ∃ req, ProcessConnection.setProcessName (.new .processConnection)
      (.ofStr s.processId) = .ok req := by
    have hfits : ¬ NAME_LENGTH < (StringView.ofStr s.processId).length := Nat.not_lt.2 hname
    unfold ProcessConnection.setProcessName MessageData.setStr
    rw [if_neg hfits]
    exact ⟨_, rfl⟩
  rcases hreq with ⟨req, hreq⟩
  unfold TCPServer.connected
  rw [hpoll]
  simp only [hreq]
  refine ⟨_, rfl, ?_, ?_⟩
  · simp
  · simp

/-- What a step that the condition rules out leaves behind. -/
theorem broken_step (he : ¬ n.Spared e) : ∃ n', n.step e = .ok n' ∧ ¬ n'.Live := by
  cases e with
  | lost t =>
    unfold Spared at he
    push Not at he
    rcases he with ⟨hopen, he⟩
    rcases callback_frame n t with ⟨htcp, hconn⟩
    refine ⟨{ server := n.callback t, closed := t :: n.closed }, ?_, ?_⟩
    · simp only [step, if_pos hopen]
    · intro hlive
      by_cases hused : ∃ r, (n.server.heap r).conn = some t
      · -- it is in use, and closed
        rcases hused with ⟨r, hr⟩
        have hopen' := (hlive r t ((hconn r).trans hr)).2
        exact hopen'.2 List.mem_cons_self
      · -- its client takes the status of another connection with it
        push Not at hused
        rcases he hused with ⟨r, horigin, hclient, hsome⟩
        rcases Option.ne_none_iff_exists'.1 hsome with ⟨t', ht'⟩
        have hstatus := (hlive r t' ((hconn r).trans ht')).1
        simp only [callback, horigin, TCPServer.disconnected, hclient, TCPServer.setConn_heap,
          Function.update_self] at hstatus
        cases hstatus
  | server e =>
    cases e with
    | connected r t =>
      unfold Spared at he
      push Not at he
      rcases he with ⟨hfresh, hpoll, hname, hstatus⟩
      have hpossible : n.Possible (.connected r t) := hfresh
      rcases connected_poll (t := t) hpoll hname with ⟨server, hs, hconn, hsame⟩
      refine ⟨{ n with server := server }, ?_, ?_⟩
      · simp only [step, if_pos hpossible, serve, TCPServer.step, hs]
        rfl
      · intro hlive
        exact hstatus (hsame.symm.trans (hlive r t hconn).1)
    | _ => exact absurd trivial he

/-- **Lost connections.** In a run, what a `Connection` refers to is connected and open, and
calls without it are stored and lead to a connection, exactly if no connection is lost that is
in use and the control plane is not reached by the client of `poll`. -/
theorem reconnects_iff (own : Str) (es : List Event) :
    (∀ es' n, es' <+: es → Lts.run step (new own) es' = .ok n → n.Live ∧ n.Reconnects) ↔
      Lts.Meets step Spared (new own) es := by
  have hkeeps : ∀ (n : Net) e n', Sound n.closed n.server → n.Spared e → n.step e = .ok n' →
      Sound n'.closed n'.server := fun n e n' => sound_step
  have hholds : ∀ n : Net, Sound n.closed n.server → n.Live ∧ n.Reconnects :=
    fun n h => ⟨live_of_sound h, reconnects_of_sound h⟩
  have hbreaks : ∀ (n : Net) e, Sound n.closed n.server → ¬ n.Spared e →
      ∃ n', n.step e = .ok n' ∧ ¬ (n'.Live ∧ n'.Reconnects) := by
    intro n e _ he
    rcases broken_step he with ⟨n', hn', hbroken⟩
    exact ⟨n', hn', fun h => hbroken h.1⟩
  exact Lts.always_iff_meets hkeeps hholds hbreaks (sound_new own)

/-- A process that has registered is lost. The next message for it is written to the
connection that is closed; nothing is stored, and no connection is on its way. -/
theorem lost_process_written :
    ∃ n n', Lts.run step (new (str ['q']))
        [.server (.accept 0), .server (.receive 0 (registrationHeader (str ['p']))), .lost 0] =
          .ok n ∧
      n.step (.server (.putMessage (str ['p']) (.ofStr (str ['m'])) [1])) = .ok n' ∧
      ¬ n.Live ∧ ¬ n.Reconnects ∧ ¬ n.Open 0 ∧
      (n'.server.sent.drop n.server.sent.length).map Prod.fst = [0, 0] ∧
      (n'.server.heap 0).pendingMsgs = [] ∧ (n'.server.heap 0).client = none := by
  have hrun := Lts.run_test step (new (str ['q']))
    [.server (.accept 0), .server (.receive 0 (registrationHeader (str ['p']))), .lost 0]
    (fun n => (n.server.heap 0).conn = some 0 ∧ ¬ n.Open 0 ∧
      n.server.connectionData (str ['p']) = some 0 ∧
      (n.server.step (.putMessage (str ['p']) (.ofStr (str ['m'])) [1])).toOption.any fun server =>
        decide ((server.sent.drop n.server.sent.length).map Prod.fst = [0, 0] ∧
          (server.heap 0).pendingMsgs = [] ∧ (server.heap 0).client = none))
    (by decide +kernel)
  rcases hrun with ⟨n, hn, hconn, hclosed, hdata, hput⟩
  cases hserver : n.server.step (.putMessage (str ['p']) (.ofStr (str ['m'])) [1]) with
  | error x => simp [hserver, Except.toOption] at hput
  | ok server =>
    simp only [hserver, Except.toOption, Option.any_some, decide_eq_true_eq] at hput
    rcases hput with ⟨hsent, hpending, hclient⟩
    have hpossible : n.Possible (.putMessage (str ['p']) (.ofStr (str ['m'])) [1]) := trivial
    refine ⟨n, { n with server := server }, hn, ?_, ?_, ?_, hclosed, hsent, hpending, hclient⟩
    · simp only [step, if_pos hpossible, serve, hserver]
      rfl
    · intro hlive
      exact hclosed (hlive 0 0 hconn).2
    · intro hreconnects
      have hnone : ∀ t, (n.server.heap 0).conn = some t → ¬ n.Open t := by
        intro t ht
        obtain rfl : 0 = t := Option.some.inj (hconn.symm.trans ht)
        exact hclosed
      rcases (hreconnects (str ['p']) 0 hdata hnone _ server rfl hserver).2.1 with ⟨m, hm⟩
      rw [hpending] at hm
      simp at hm

end Net

end Praas.Process.Remote
