import Praas.Lib.Lts
import Praas.Process.Remote

/-! # What is sent to one remote process

`put_message` and `invocation_request` for one process, interleaved with the events that
make it reachable: the process registers, or the client that `_connect` has started reaches
it. Messages are stored as long as there is no connection, and only the callback of
`_connect` sends what is stored.

* `InOrder`: nothing is stored once there is a connection, and what was written is what was
  called for, in order.
* `messages_in_order_iff`: a run keeps it exactly if the process never registers while
  messages for it are stored.
-/

namespace Praas.Process.Remote

open Message

/-- A message as it is stored: its header and its payload. -/
abbrev Outgoing := List Byte × List Byte

/-- The sends of a message; an empty one writes nothing. -/
def parts (m : Outgoing) : List (List Byte) := [m.1, m.2].filter fun bs => 0 < bs.length

def texts (sends : List (TcpId × List Byte)) : List (List Byte) :=
  (sends.map Prod.snd).filter fun bs => 0 < bs.length

theorem texts_append (a b : List (TcpId × List Byte)) : texts (a ++ b) = texts a ++ texts b := by
  simp [texts]

theorem texts_send (t : TcpId) (m : Outgoing) : texts [(t, m.1), (t, m.2)] = parts m := rfl

/-- A send that is left out for an empty payload. -/
theorem texts_header (t : TcpId) {m : Outgoing} (h : ¬ 0 < m.2.length) :
    texts [(t, m.1)] = parts m := by
  unfold texts parts
  simp only [List.map_cons, List.map_nil, List.filter_cons, List.filter_nil, decide_eq_true_eq,
    if_neg h]

namespace TCPServer

/-! ## The headers of the calls -/

def putHeader (own : Str) (name : StringView) (payload : List Byte) : Except Fault MessageData := do
  let req ← PutMessage.setName (.new .putMessage) name
  let req ← PutMessage.setProcessId req (.ofStr own)
  return req.setTotalLength (toInt32 payload.length)

def requestHeader (functionName invocationId : StringView) (payload : List Byte) :
    Except Fault MessageData := do
  let req ← InvocationRequest.setInvocationId (.new .invocationRequest) invocationId
  let req ← InvocationRequest.setFunctionName req functionName
  let req ← InvocationRequest.setPayloadSize req (toInt32 payload.length)
  return req.setTotalLength (toInt32 payload.length)

variable {s s' : TCPServer} {p : Str} {r : Ref} {t : TcpId}

theorem putMessage_eq (hr : s.connectionData p = some r) (name : StringView)
    (payload : List Byte) :
    s.putMessage p name payload =
      (putHeader s.processId name payload).map fun req => s.sendOrStore r req payload := by
  unfold putMessage putHeader
  simp only [hr]
  cases PutMessage.setName (.new .putMessage) name with
  | error x => rfl
  | ok req =>
    simp only [bind, Except.bind]
    cases PutMessage.setProcessId req (.ofStr s.processId) with
    | error x => rfl
    | ok req' => rfl

theorem invocationRequest_eq (hr : s.connectionData p = some r)
    (functionName invocationId : StringView) (payload : List Byte) :
    s.invocationRequest p functionName invocationId payload =
      (requestHeader functionName invocationId payload).map fun req =>
        s.sendOrStore r req payload := by
  unfold invocationRequest requestHeader
  simp only [hr]
  cases InvocationRequest.setInvocationId (.new .invocationRequest) invocationId with
  | error x => rfl
  | ok req =>
    simp only [bind, Except.bind]
    cases InvocationRequest.setFunctionName req functionName with
    | error x => rfl
    | ok req' =>
      simp only
      cases InvocationRequest.setPayloadSize req' (toInt32 payload.length) with
      | error x => rfl
      | ok req'' => rfl

/-! ## What the steps do to the connection of one process -/

theorem sendOrStore_stored (hconn : (s.heap r).conn = none) (req : MessageData)
    (payload : List Byte) :
    (s.sendOrStore r req payload).sent = s.sent ∧
      (s.sendOrStore r req payload).connectionData = s.connectionData ∧
      ((s.sendOrStore r req payload).heap r).conn = none ∧
      ((s.sendOrStore r req payload).heap r).pendingMsgs =
        (s.heap r).pendingMsgs ++ [(req.buf, payload)] := by
  simp only [sendOrStore, hconn, setConn_heap, Function.update_self]
  split_ifs
  · refine ⟨rfl, rfl, ?_, ?_⟩
    · simp [connect, hconn]
    · simp [connect]
  · refine ⟨rfl, rfl, ?_, ?_⟩
    · simp [hconn]
    · simp

theorem sendOrStore_sent (hconn : (s.heap r).conn = some t) (req : MessageData)
    (payload : List Byte) :
    s.sendOrStore r req payload = (s.send t req.buf).send t payload := by
  simp only [sendOrStore, hconn]

/-- A process that is known registers. -/
theorem handleConnection_known {m : MessagePtr}
    (hr : s.connectionData (ProcessConnection.processName m) = some r) :
    ∃ s' bs, s.handleConnection t m = .ok s' ∧ s'.sent = s.sent ++ [(t, bs)] ∧
      s'.connectionData = s.connectionData ∧ s'.heap r = (s.heap r).setConnected t := by
  have hreq : ∃ req, ProcessConnection.setProcessName (.new .processConnection) (.ofStr CORRECT) =
      .ok req := by
    unfold ProcessConnection.setProcessName MessageData.setStr
    rw [if_neg (by decide)]
    exact ⟨_, rfl⟩
  rcases hreq with ⟨req, hreq⟩
  unfold handleConnection
  simp only [hr, hreq]
  refine ⟨_, req.buf, rfl, ?_, ?_, ?_⟩
  · simp
  · funext k
    simp
  · simp

theorem sendPending_frame (msgs : List Outgoing) :
    (s.sendPending t msgs).connectionData = s.connectionData ∧
      (s.sendPending t msgs).heap = s.heap ∧ (s.sendPending t msgs).tcp = s.tcp := by
  unfold sendPending
  induction msgs generalizing s with
  | nil => exact ⟨rfl, rfl, rfl⟩
  | cons m msgs ih =>
    simp only [List.foldl_cons]
    split_ifs
    · exact ih
    · exact ih

theorem sendPending_next (msgs : List Outgoing) : (s.sendPending t msgs).next = s.next := by
  unfold sendPending
  induction msgs generalizing s with
  | nil => rfl
  | cons m msgs ih =>
    simp only [List.foldl_cons]
    split_ifs
    · exact ih
    · exact ih

/-- What is stored is sent in order. -/
theorem sendPending_sent (msgs : List Outgoing) :
    ∃ sends, (s.sendPending t msgs).sent = s.sent ++ sends ∧
      texts sends = msgs.flatMap parts ∧ ∀ w ∈ sends, w.1 = t := by
  induction msgs generalizing s with
  | nil =>
    refine ⟨[], ?_, rfl, by simp⟩
    simp [sendPending]
  | cons m msgs ih =>
    let s₁ := if 0 < m.2.length then (s.send t m.1).send t m.2 else s.send t m.1
    have hcons : s.sendPending t (m :: msgs) = s₁.sendPending t msgs := rfl
    rcases ih (s := s₁) with ⟨sends, hsent, htexts, hconns⟩
    by_cases hpayload : 0 < m.2.length
    · refine ⟨[(t, m.1), (t, m.2)] ++ sends, ?_, ?_, ?_⟩
      · rw [hcons, hsent]
        simp [s₁, hpayload]
      · rw [texts_append, texts_send, htexts, List.flatMap_cons]
      · simpa using hconns
    · refine ⟨[(t, m.1)] ++ sends, ?_, ?_, ?_⟩
      · rw [hcons, hsent]
        simp [s₁, hpayload]
      · rw [texts_append, texts_header t hpayload, htexts, List.flatMap_cons]
      · simpa using hconns

/-- The client that `_connect` has started reaches the process. -/
theorem connected_flushes (hclient : (s.heap r).client = some .connect)
    (h : s.connected r t = .ok s') :
    ∃ bs sends, s'.sent = s.sent ++ (t, bs) :: sends ∧
      texts sends = (s.heap r).pendingMsgs.flatMap parts ∧ (∀ w ∈ sends, w.1 = t) ∧
      s'.connectionData = s.connectionData ∧ (s'.heap r).conn = some t ∧
      (s'.heap r).pendingMsgs = [] := by
  unfold connected at h
  simp only [hclient] at h
  rcases Lts.bind_ok h with ⟨req, _, h⟩
  have hs' := (Except.ok.inj h).symm
  -- the server once its registration is sent
  generalize hs₁ : ((s.openTcp t (.client r)).send t req.buf).setConn r
    ((((s.openTcp t (.client r)).send t req.buf).heap r).setConnected t) = s₁ at hs'
  have hpending : (s₁.heap r).pendingMsgs = (s.heap r).pendingMsgs := by
    rw [← hs₁]
    simp
  have hconn : (s₁.heap r).conn = some t := by
    rw [← hs₁]
    simp
  have hsent₁ : s₁.sent = s.sent ++ [(t, req.buf)] := by
    rw [← hs₁]
    rfl
  have hdata₁ : s₁.connectionData = s.connectionData := by
    rw [← hs₁]
    rfl
  rcases sendPending_sent (s := s₁) (t := t) (s₁.heap r).pendingMsgs with
    ⟨sends, hsent, htexts, hconns⟩
  rcases sendPending_frame (s := s₁) (t := t) (s₁.heap r).pendingMsgs with ⟨hdata, hheap, _⟩
  subst hs'
  refine ⟨req.buf, sends, ?_, ?_, hconns, ?_, ?_, ?_⟩
  · rw [setConn_sent, hsent, hsent₁, List.append_assoc]
    rfl
  · rw [htexts, hpending]
  · exact hdata.trans hdata₁
  · simp [hheap, hconn]
  · simp

end TCPServer

/-! ## Runs -/

/-- A step in the exchange with one process. -/
inductive Exchange where
  | putMessage (name : StringView) (payload : List Byte)
  | invocationRequest (functionName invocationId : StringView) (payload : List Byte)
  | registered (t : TcpId) (msg : MessagePtr)
  | connected (t : TcpId)

namespace Exchange

/-- The message that a call is for, if it does not raise. -/
def message (own : Str) : Exchange → Option Outgoing
  | .putMessage name payload =>
    (TCPServer.putHeader own name payload).toOption.map fun req => (req.buf, payload)
  | .invocationRequest functionName invocationId payload =>
    (TCPServer.requestHeader functionName invocationId payload).toOption.map fun req =>
      (req.buf, payload)
  | _ => none

/-- The connection on which the process can be reached. -/
def reaches : Exchange → Option TcpId
  | .registered t _ => some t
  | .connected t => some t
  | _ => none

end Exchange

/-- The server, with what was called for and what was written for the process, and the
connections to it. -/
structure Traffic where
  server : TCPServer
  calls : List Outgoing := []
  written : List (TcpId × List Byte) := []
  reached : List TcpId

namespace Traffic

def start (server : TCPServer) (r : Ref) : Traffic where
  server := server
  reached := (server.heap r).conn.toList

/-- The server after `e`, where the first `k` sends are no messages of calls. -/
def after (s : Traffic) (e : Exchange) (k : ℕ) (server : TCPServer) : Traffic where
  server := server
  calls := s.calls ++ (e.message s.server.processId).toList
  written := s.written ++ server.sent.drop (s.server.sent.length + k)
  reached := s.reached ++ e.reaches.toList

/-- A call that raises leaves the server as it was. -/
def orKeep (s : Traffic) : Except Fault TCPServer → TCPServer
  | .ok server => server
  | .error _ => s.server

/-- Registrations of other processes, and a client that `_connect` has not started, are no
steps of the exchange. The registration that is sent to the process, or the confirmation of
its own, comes first. -/
def step (p : Str) (s : Traffic) (e : Exchange) : Except Fault Traffic :=
  match e with
  | .putMessage name payload =>
    .ok (s.after e 0 (s.orKeep (s.server.putMessage p name payload)))
  | .invocationRequest functionName invocationId payload =>
    .ok (s.after e 0
      (s.orKeep (s.server.invocationRequest p functionName invocationId payload)))
  | .registered t msg =>
    if ProcessConnection.processName msg = p then
      (s.server.handleConnection t msg).map (s.after e 1)
    else .ok s
  | .connected t =>
    match s.server.connectionData p with
    | none => .ok s
    | some r =>
      if (s.server.heap r).client = some .connect then
        (s.server.connected r t).map (s.after e 1)
      else .ok s

/-- What was called for is written in order on connections to the process, but for what is
stored, and nothing is stored once there is a connection. -/
structure InOrder (r : Ref) (s : Traffic) : Prop where
  stored : (s.server.heap r).conn ≠ none → (s.server.heap r).pendingMsgs = []
  sequence : texts s.written ++ (s.server.heap r).pendingMsgs.flatMap parts =
    s.calls.flatMap parts
  reached : ∀ w ∈ s.written, w.1 ∈ s.reached

/-- The process does not register while messages for it are stored. -/
def Flushed (p : Str) (r : Ref) (s : Traffic) : Exchange → Prop
  | .registered _ msg =>
    ProcessConnection.processName msg = p → (s.server.heap r).pendingMsgs = []
  | _ => True

instance (p : Str) (r : Ref) (s : Traffic) : DecidablePred (s.Flushed p r)
  | .registered _ _ => inferInstanceAs (Decidable (_ → _))
  | .putMessage .. => isTrue trivial
  | .invocationRequest .. => isTrue trivial
  | .connected _ => isTrue trivial

/-! ## What a step preserves -/

variable {s s' : Traffic} {p : Str} {r : Ref} {e : Exchange}

structure Kept (p : Str) (r : Ref) (s : Traffic) : Prop where
  listed : s.server.connectionData p = some r
  inOrder : s.InOrder r
  current : ∀ t, (s.server.heap r).conn = some t → t ∈ s.reached

/-- The next sends are to the connections that are known, with the step's own. -/
theorem reached_append {k : List TcpId} {sends : List (TcpId × List Byte)}
    (h : ∀ w ∈ s.written, w.1 ∈ s.reached) (hsends : ∀ w ∈ sends, w.1 ∈ s.reached ++ k) :
    ∀ w ∈ s.written ++ sends, w.1 ∈ s.reached ++ k := by
  intro w hw
  rcases List.mem_append.1 hw with hw | hw
  · exact List.mem_append_left _ (h w hw)
  · exact hsends w hw

theorem kept_stored (h : s.Kept p r) {req : MessageData} {payload : List Byte}
    (hconn : (s.server.heap r).conn = none)
    (hmessage : e.message s.server.processId = some (req.buf, payload)) :
    (s.after e 0 (s.server.sendOrStore r req payload)).Kept p r := by
  rcases TCPServer.sendOrStore_stored hconn req payload with ⟨hsent, hdata, hnone, hpending⟩
  have hdrop : (s.server.sendOrStore r req payload).sent.drop (s.server.sent.length + 0) = [] := by
    rw [hsent]
    exact List.drop_length
  constructor
  · exact (congrFun hdata p).trans h.listed
  · constructor
    · intro hsome
      exact absurd hnone hsome
    · simp only [after, hdrop, hpending, hmessage, List.append_nil, List.flatMap_append,
        Option.toList_some, ← List.append_assoc, h.inOrder.sequence]
    · simp only [after, hdrop]
      exact reached_append h.inOrder.reached (by simp)
  · intro t ht
    exact absurd (hnone.symm.trans ht) (by simp)

theorem kept_sent (h : s.Kept p r) {req : MessageData} {payload : List Byte} {t : TcpId}
    (hconn : (s.server.heap r).conn = some t)
    (hmessage : e.message s.server.processId = some (req.buf, payload)) :
    (s.after e 0 (s.server.sendOrStore r req payload)).Kept p r := by
  -- on a connection that is up nothing waits, so the message is next
  have hsend := TCPServer.sendOrStore_sent hconn req payload
  have hpending : (s.server.heap r).pendingMsgs = [] := h.inOrder.stored (by simp [hconn])
  have hdrop : (s.server.sendOrStore r req payload).sent.drop (s.server.sent.length + 0) =
      [(t, req.buf), (t, payload)] := by
    rw [hsend]
    simp
  have hsequence := h.inOrder.sequence
  rw [hpending, List.flatMap_nil, List.append_nil] at hsequence
  constructor
  · rw [← h.listed]
    simp only [after, hsend]
    rfl
  · constructor
    · intro _
      simp only [after, hsend]
      exact hpending
    · have hsame : ((s.server.sendOrStore r req payload).heap r).pendingMsgs = [] := by
        rw [hsend]
        exact hpending
      simp only [after, hdrop, hsame, hmessage, texts_append, hsequence]
      simp [texts_send t (req.buf, payload)]
    · simp only [after, hdrop]
      apply reached_append h.inOrder.reached
      intro w hw
      have ht : t ∈ s.reached := h.current t hconn
      simp only [List.mem_cons, List.not_mem_nil, or_false] at hw
      rcases hw with rfl | rfl
      · exact List.mem_append_left _ ht
      · exact List.mem_append_left _ ht
  · intro t' ht'
    simp only [after, hsend] at ht' ⊢
    exact List.mem_append_left _ (h.current t' ht')

/-- A call writes or stores its message. -/
theorem kept_call (h : s.Kept p r) (hreaches : e.reaches = none)
    {header : Except Fault MessageData} {payload : List Byte}
    (hmessage : e.message s.server.processId =
      header.toOption.map fun req => (req.buf, payload)) :
    (s.after e 0 (s.orKeep (header.map fun req => s.server.sendOrStore r req payload))).Kept
      p r := by
  cases header with
  | error x =>
    -- it raises
    have hsame : s.after e 0 s.server = s := by
      simp [after, hreaches, hmessage, Except.toOption]
    simp only [Except.map, orKeep, hsame]
    exact h
  | ok req =>
    cases hconn : (s.server.heap r).conn with
    | none => exact kept_stored h hconn hmessage
    | some t => exact kept_sent h hconn hmessage

/-- The process registers, and nothing is stored. -/
theorem kept_registered (h : s.Kept p r) {t : TcpId} {msg : MessagePtr}
    (hname : ProcessConnection.processName msg = p)
    (hpending : (s.server.heap r).pendingMsgs = []) {server : TCPServer}
    (hs : s.server.handleConnection t msg = .ok server) :
    (s.after (.registered t msg) 1 server).Kept p r := by
  subst hname
  rcases TCPServer.handleConnection_known (t := t) h.listed with
    ⟨server', bs, hok, hsent, hdata, hheap⟩
  obtain rfl : server' = server := Except.ok.inj (hok.symm.trans hs)
  have hdrop : server'.sent.drop (s.server.sent.length + 1) = [] := by
    rw [hsent]
    simp
  have hsame : (server'.heap r).pendingMsgs = [] := by
    rw [hheap]
    exact hpending
  have hsequence := h.inOrder.sequence
  rw [hpending] at hsequence
  constructor
  · exact (congrFun hdata _).trans h.listed
  · constructor
    · intro _
      exact hsame
    · simp only [after, hdrop, hsame, List.append_nil, Exchange.message, Option.toList_none]
      exact hsequence
    · simp only [after, hdrop]
      exact reached_append h.inOrder.reached (by simp)
  · intro t' ht'
    have ht : t = t' := by simpa [after, hheap] using ht'
    simp [after, Exchange.reaches, ht]

/-- The client of the process reaches it, and sends what is stored. -/
theorem kept_connected (h : s.Kept p r) {t : TcpId}
    (hclient : (s.server.heap r).client = some .connect) {server : TCPServer}
    (hs : s.server.connected r t = .ok server) :
    (s.after (.connected t) 1 server).Kept p r := by
  rcases TCPServer.connected_flushes hclient hs with
    ⟨bs, sends, hsent, htexts, hconns, hdata, hconn, hpending⟩
  have hdrop : server.sent.drop (s.server.sent.length + 1) = sends := by
    rw [hsent, List.drop_append]
    simp
  constructor
  · exact (congrFun hdata p).trans h.listed
  · constructor
    · intro _
      exact hpending
    · simp only [after, hdrop, hpending, texts_append, htexts, Exchange.message,
        Option.toList_none, List.append_nil, List.flatMap_nil]
      exact h.inOrder.sequence
    · simp only [after, hdrop]
      apply reached_append h.inOrder.reached
      intro w hw
      simp [hconns w hw, Exchange.reaches]
  · intro t' ht'
    have ht : t = t' := by simpa [after, hconn] using ht'
    simp [after, Exchange.reaches, ht]

theorem kept_step (h : s.Kept p r) (he : s.Flushed p r e) (hs : s.step p e = .ok s') :
    s'.Kept p r := by
  cases e with
  | putMessage name payload =>
    obtain rfl := Except.ok.inj hs
    rw [TCPServer.putMessage_eq h.listed]
    exact kept_call h rfl rfl
  | invocationRequest functionName invocationId payload =>
    obtain rfl := Except.ok.inj hs
    rw [TCPServer.invocationRequest_eq h.listed]
    exact kept_call h rfl rfl
  | registered t msg =>
    simp only [step] at hs
    split_ifs at hs with hname
    · cases hserver : s.server.handleConnection t msg with
      | error x =>
        rw [hserver] at hs
        cases hs
      | ok server =>
        rw [hserver] at hs
        obtain rfl := Except.ok.inj hs
        exact kept_registered h hname (he hname) hserver
    · obtain rfl := Except.ok.inj hs
      exact h
  | connected t =>
    simp only [step, h.listed] at hs
    split_ifs at hs with hclient
    · cases hserver : s.server.connected r t with
      | error x =>
        rw [hserver] at hs
        cases hs
      | ok server =>
        rw [hserver] at hs
        obtain rfl := Except.ok.inj hs
        exact kept_connected h hclient hserver
    · obtain rfl := Except.ok.inj hs
      exact h

/-- A registration leaves what is stored behind. -/
theorem stranded_step (h : s.Kept p r) (he : ¬ s.Flushed p r e) :
    ∃ s', s.step p e = .ok s' ∧ ¬ s'.InOrder r := by
  cases e with
  | registered t msg =>
    have hnot : ¬ (ProcessConnection.processName msg = p → (s.server.heap r).pendingMsgs = []) := he
    push Not at hnot
    rcases hnot with ⟨hname, hpending⟩
    subst hname
    rcases TCPServer.handleConnection_known (t := t) h.listed with
      ⟨server, bs, hok, _, _, hheap⟩
    refine ⟨s.after (.registered t msg) 1 server, ?_, ?_⟩
    · simp only [step, if_pos, hok]
      rfl
    · intro hinorder
      have hconn : ((s.after (.registered t msg) 1 server).server.heap r).conn ≠ none := by
        simp [after, hheap]
      have hempty := hinorder.stored hconn
      simp only [after, hheap] at hempty
      exact hpending hempty
  | _ => exact absurd trivial he

/-! ## Runs -/

/-- **Stored messages.** A run of calls for a process that is known, and of events that make
it reachable, leaves no message behind and writes all of them in order exactly if the process
does not register while messages for it are stored. -/
theorem messages_in_order_iff (server : TCPServer) (p : Str) (r : Ref)
    (hknown : server.connectionData p = some r) (hpending : (server.heap r).pendingMsgs = [])
    (es : List Exchange) :
    (∀ es' s, es' <+: es → Lts.run (step p) (start server r) es' = .ok s → s.InOrder r) ↔
      Lts.Meets (step p) (Flushed p r) (start server r) es := by
  have hkeeps : ∀ (s : Traffic) e s', s.Kept p r → s.Flushed p r e → s.step p e = .ok s' →
      s'.Kept p r := fun s e s' => kept_step
  have hholds : ∀ s : Traffic, s.Kept p r → s.InOrder r := fun s h => h.inOrder
  have hbreaks : ∀ (s : Traffic) e, s.Kept p r → ¬ s.Flushed p r e →
      ∃ s', s.step p e = .ok s' ∧ ¬ s'.InOrder r := fun s e => stranded_step
  have hstart : (start server r).Kept p r := by
    constructor
    · exact hknown
    · constructor
      · intro _
        exact hpending
      · simp [start, texts, hpending]
      · simp [start]
    · intro t ht
      have hconn : (server.heap r).conn = some t := ht
      simp [start, hconn]
  exact Lts.always_iff_meets hkeeps hholds hbreaks hstart

/-- The server `q` that has been told of the process `p`. -/
def sampleKnown : TCPServer :=
  (TCPServer.new (str ['q'])).handleAppUpdate 0
    ([8, 0, 0, 0, 0, 0] ++ str ['p'] ++ List.replicate 63 0)

def samplePut (payload : List Byte) : Exchange := .putMessage (.ofStr (str ['m'])) payload

def sampleRegistration (t : TcpId) : Exchange :=
  .registered t ([1, 0, 0, 0, 0, 0] ++ str ['p'] ++ List.replicate 63 0)

/-- What is stored is sent before the process registers. -/
theorem messages_in_order_connected :
    ∃ s, Lts.run (step (str ['p'])) (start sampleKnown 0)
        [samplePut [1], .connected 0, samplePut [2], sampleRegistration 1, samplePut [3]] = .ok s ∧
      s.calls.length = 3 ∧ s.InOrder 0 := by
  have hrun := Lts.run_test (step (str ['p'])) (start sampleKnown 0)
    [samplePut [1], .connected 0, samplePut [2], sampleRegistration 1, samplePut [3]]
    (fun s => s.calls.length = 3) (by decide +kernel)
  rcases hrun with ⟨s, hs, hcalls⟩
  refine ⟨s, hs, hcalls, ?_⟩
  exact (messages_in_order_iff sampleKnown (str ['p']) 0 (by decide +kernel) (by decide +kernel)
    _).2 (by decide +kernel) _ s (List.prefix_refl _) hs

/-- The process registers while a message for it is stored: the message stays behind, and is
sent after the next one when the client reaches the process, too. -/
theorem registration_strands_message :
    ∃ s t, Lts.run (step (str ['p'])) (start sampleKnown 0)
        [samplePut [1], sampleRegistration 0] = .ok s ∧
      Lts.run (step (str ['p'])) (start sampleKnown 0)
        [samplePut [1], sampleRegistration 0, samplePut [2], .connected 1] = .ok t ∧
      ((s.server.heap 0).conn = some 0 ∧ (s.server.heap 0).pendingMsgs ≠ []) ∧
      (t.server.heap 0).pendingMsgs = [] ∧ texts t.written ≠ t.calls.flatMap parts ∧
      texts t.written = t.calls.reverse.flatMap parts := by
  have hstored := Lts.run_test (step (str ['p'])) (start sampleKnown 0)
    [samplePut [1], sampleRegistration 0]
    (fun s => (s.server.heap 0).conn = some 0 ∧ (s.server.heap 0).pendingMsgs ≠ [])
    (by decide +kernel)
  have hswapped := Lts.run_test (step (str ['p'])) (start sampleKnown 0)
    [samplePut [1], sampleRegistration 0, samplePut [2], .connected 1]
    (fun t => (t.server.heap 0).pendingMsgs = [] ∧ texts t.written ≠ t.calls.flatMap parts ∧
      texts t.written = t.calls.reverse.flatMap parts) (by decide +kernel)
  rcases hstored with ⟨s, hs, hstored⟩
  rcases hswapped with ⟨t, ht, hswapped⟩
  exact ⟨s, t, hs, ht, hstored, hswapped⟩

end Traffic

end Praas.Process.Remote
