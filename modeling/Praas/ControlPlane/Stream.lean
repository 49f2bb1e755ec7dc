import Praas.Lib.Framing
import Praas.Common.Messages

/-! # The byte stream of a process at the control plane

`TCPServer::handle_message`: the messages on one TCP connection, which arrive as chunks
of bytes. The calls of the process and of its application are recorded; they are taken
to return.

* `handleMessage` recurses while it has consumed a message and bytes are left; each
  consumed message leaves fewer of them.
* `receive_simulates`: one call does what the abstract parser of `Praas.Lib.Framing`
  does that goes on after a resumed payload.
* `chunks_delivered`: the messages on a registered connection come to the same calls,
  however the stream is cut.
-/

namespace Praas.ControlPlane.TcpStream

open Message Framing

/-! ## The server on one connection -/

/-- `ConnectionData`, without the process. -/
structure ConnectionData where
  curMsg : MessagePtr := List.replicate BUF_SIZE 0
  bytesToRead : ℕ := 0
deriving DecidableEq, Repr

/-- What the server calls, on the process of the connection or for it. -/
inductive ServerCall where
  | finishInvocation (id : Str) (returnCode : Int) (payload : List Byte)
  | updateMetrics (time invocations : Int) (timestamp : ℕ)
  | swappedProcess
  | handleClosure
  | connect (name : Str)
deriving DecidableEq, Repr

/-- A connection: its context, what has been received and not retrieved, and the calls. -/
structure Stream where
  data : Option ConnectionData := none
  buffer : List Byte := []
  calls : List ServerCall := []
deriving DecidableEq, Repr

namespace Stream

def retrieve (s : Stream) (n : ℕ) : Stream :=
  { s with buffer := s.buffer.drop n }

def call (s : Stream) (c : ServerCall) : Stream :=
  { s with calls := s.calls ++ [c] }

/-- The header is retrieved when its payload is first asked for. -/
def handleInvocationResult (s : Stream) (data : ConnectionData) (req : MessagePtr) :
    Stream × Bool :=
  let data' :=
    if data.bytesToRead = 0 then ⟨req, sizeT (totalLength req)⟩ else data
  let buffer :=
    if data.bytesToRead = 0 then s.buffer.drop BUF_SIZE else s.buffer
  if data'.bytesToRead ≤ buffer.length then
    ({ data := some { data' with bytesToRead := 0 }
       buffer := buffer.drop data'.bytesToRead
       calls := s.calls ++ [.finishInvocation (InvocationResult.invocationId req)
         (InvocationResult.returnCode req) (buffer.take data'.bytesToRead)] }, true)
  else ({ s with data := some data', buffer := buffer }, false)

/-- `handle_message` (dispatch). The parsed message is constant, and the handler of a
registration takes it by a mutable reference: a second registration is an unknown
message. -/
def dispatch (s : Stream) (data : ConnectionData) : MessageVariants → Stream × Bool
  | .processClosure _ => ((s.call .handleClosure).retrieve BUF_SIZE, true)
  | .dataplaneMetrics m =>
    ((s.call (.updateMetrics (DataplaneMetrics.computationTime m) (DataplaneMetrics.invocations m)
      (DataplaneMetrics.lastInvocationTimestamp m))).retrieve BUF_SIZE, true)
  | .invocationResult m => s.handleInvocationResult data m
  | .swapConfirmation _ => ((s.call .swappedProcess).retrieve BUF_SIZE, true)
  | _ => (s.retrieve BUF_SIZE, true)

/-- One pass of `handle_message`, and whether it has consumed a message; `pending` are
the names under which processes are expected to connect. -/
def handleOnce (pending : Str → Bool) (s : Stream) : Except Fault (Stream × Bool) :=
  match s.data with
  | none =>
    if s.buffer.length < BUF_SIZE then .ok (s, false)
    else
      match MessageParser.parse (s.buffer.take BUF_SIZE) with
      | .error f => .error f
      | .ok (.processConnection m) =>
        if pending (ProcessConnection.processName m) then
          .ok ({ s.call (.connect (ProcessConnection.processName m)) with
            data := some {} }.retrieve BUF_SIZE, true)
        else .ok (s.retrieve BUF_SIZE, true)
      | .ok _ => .ok (s.retrieve BUF_SIZE, true)
  | some data =>
    if 0 < data.bytesToRead then
      (MessageParser.parse data.curMsg).map fun msg => s.dispatch data msg
    else if s.buffer.length < BUF_SIZE then .ok (s, false)
    else (MessageParser.parse (s.buffer.take BUF_SIZE)).map fun msg => s.dispatch data msg

/-- A consumed message has left something of the buffer behind. -/
theorem handleInvocationResult_consumes (s : Stream) (data : ConnectionData) (req : MessagePtr) :
    (s.handleInvocationResult data req).2 = true →
      ∃ n, 0 < n ∧ (s.handleInvocationResult data req).1.buffer = s.buffer.drop n := by
  unfold handleInvocationResult
  dsimp only
  intro hconsumed
  split_ifs at hconsumed ⊢ with hfresh
  · refine ⟨BUF_SIZE + sizeT (totalLength req), by simp [BUF_SIZE], ?_⟩
    rw [List.drop_drop]
  · exact ⟨data.bytesToRead, Nat.pos_of_ne_zero hfresh, rfl⟩

theorem dispatch_consumes (s : Stream) (data : ConnectionData) (msg : MessageVariants)
    (h : (s.dispatch data msg).2 = true) :
    ∃ n, 0 < n ∧ (s.dispatch data msg).1.buffer = s.buffer.drop n := by
  cases msg with
  | invocationResult m => exact handleInvocationResult_consumes s data m h
  | _ => exact ⟨BUF_SIZE, by decide, rfl⟩

theorem handleOnce_consumes {pending : Str → Bool} {s t : Stream}
    (h : s.handleOnce pending = .ok (t, true)) : ∃ n, 0 < n ∧ t.buffer = s.buffer.drop n := by
  have hdispatch : ∀ (data : ConnectionData) (hd : MessagePtr),
      (MessageParser.parse hd).map (fun msg => s.dispatch data msg) = .ok (t, true) →
      ∃ n, 0 < n ∧ t.buffer = s.buffer.drop n := by
    intro data hd hmap
    cases hparse : MessageParser.parse hd with
    | error f =>
      rw [hparse] at hmap
      cases hmap
    | ok msg =>
      rw [hparse] at hmap
      have hpair : s.dispatch data msg = (t, true) := Except.ok.inj hmap
      have hconsumes := dispatch_consumes s data msg (by rw [hpair])
      rw [hpair] at hconsumes
      exact hconsumes
  unfold handleOnce at h
  cases hdata : s.data with
  | none =>
    -- before the registration every message is consumed with its header
    rw [hdata] at h
    dsimp only at h
    split_ifs at h with hshort
    · cases h
    · split at h
      · cases h
      · split_ifs at h
        · rw [← (Prod.mk.inj (Except.ok.inj h)).1]
          exact ⟨BUF_SIZE, by decide, rfl⟩
        · rw [← (Prod.mk.inj (Except.ok.inj h)).1]
          exact ⟨BUF_SIZE, by decide, rfl⟩
      · rw [← (Prod.mk.inj (Except.ok.inj h)).1]
        exact ⟨BUF_SIZE, by decide, rfl⟩
  | some data =>
    rw [hdata] at h
    dsimp only at h
    split_ifs at h
    · exact hdispatch data _ h
    · cases h
    · exact hdispatch data _ h

/-- `handle_message` (stream): while a message was consumed and bytes are left, it calls
itself. -/
def handleMessage (pending : Str → Bool) (s : Stream) : Except Fault Stream :=
  match _hstep : s.handleOnce pending with
  | .error f => .error f
  | .ok (t, consumed) =>
    if _hmore : consumed = true ∧ 0 < t.buffer.length then t.handleMessage pending else .ok t
termination_by s.buffer.length
decreasing_by
  rcases _hmore with ⟨rfl, hleft⟩
  rcases handleOnce_consumes _hstep with ⟨n, hn, hbuffer⟩
  rw [hbuffer, List.length_drop] at hleft ⊢
  omega

theorem handleMessage_stop {pending : Str → Bool} {s t : Stream} {consumed : Bool}
    (h : s.handleOnce pending = .ok (t, consumed)) (hstop : consumed = false ∨ t.buffer = []) :
    s.handleMessage pending = .ok t := by
  rw [handleMessage]
  split
  case h_1 f hf => cases h.symm.trans hf
  case h_2 t' consumed' h' =>
    have hpair := Prod.mk.inj (Except.ok.inj (h.symm.trans h'))
    rw [← hpair.1, ← hpair.2, dif_neg]
    rintro ⟨hconsumed, hleft⟩
    rcases hstop with hno | hempty
    · rw [hno] at hconsumed
      cases hconsumed
    · rw [hempty] at hleft
      exact absurd hleft (lt_irrefl 0)

theorem handleMessage_go {pending : Str → Bool} {s t : Stream}
    (h : s.handleOnce pending = .ok (t, true)) (hleft : t.buffer ≠ []) :
    s.handleMessage pending = t.handleMessage pending := by
  rw [handleMessage]
  split
  case h_1 f hf => cases h.symm.trans hf
  case h_2 t' consumed' h' =>
    have hpair := Prod.mk.inj (Except.ok.inj (h.symm.trans h'))
    rw [← hpair.1, ← hpair.2, dif_pos ⟨rfl, List.length_pos_iff.2 hleft⟩]

/-- A chunk arrives, and `handle_message` is called. -/
def receive (pending : Str → Bool) (s : Stream) (chunk : List Byte) : Except Fault Stream :=
  { s with buffer := s.buffer ++ chunk }.handleMessage pending

end Stream

/-! ## Messages -/

/-- The length of the payload that follows a header. -/
def declared (hd : List Byte) : ℕ :=
  match MessageParser.parse hd with
  | .ok (.invocationResult m) => sizeT (totalLength m)
  | _ => 0

/-- The frames of the byte stream. -/
def format : Format Byte where
  size := BUF_SIZE
  declared := declared
  size_pos := BUF_SIZE_pos

/-- The length field of a header of one of the four types a process sends while it runs. -/
def lengthField (hd : List Byte) : Option Int :=
  match MessageParser.parse hd with
  | .ok (.invocationResult m) => some (totalLength m)
  | .ok (.dataplaneMetrics _) => some 0
  | .ok (.swapConfirmation _) => some 0
  | .ok (.processConnection _) => some 0
  | _ => none

/-- A well-formed message on the wire: a result carries the payload it declares, and the
other messages are a header. -/
structure WireMessage where
  header : List Byte
  payload : List Byte
  header_length : header.length = BUF_SIZE
  wellFormed : lengthField header = some (payload.length : Int)

theorem length_of_lengthField {hd payload : List Byte}
    (h : lengthField hd = some (payload.length : Int)) : payload.length = declared hd := by
  unfold lengthField at h
  unfold declared
  split at h
  case h_1 m hparse =>
    rw [hparse]
    exact (sizeT_readInt32 (Option.some.inj h)).symm
  case h_2 m hparse =>
    rw [hparse]
    exact Int.ofNat.inj (Option.some.inj h).symm
  case h_3 m hparse =>
    rw [hparse]
    exact Int.ofNat.inj (Option.some.inj h).symm
  case h_4 m hparse =>
    rw [hparse]
    exact Int.ofNat.inj (Option.some.inj h).symm
  case h_5 => cases h

/-- The message as a frame of the stream. -/
def WireMessage.frame (m : WireMessage) : Frame format where
  header := m.header
  payload := m.payload
  header_length := m.header_length
  payload_length := length_of_lengthField m.wellFormed

/-- The bytes of a sequence of messages. -/
def wire (ms : List WireMessage) : List Byte := ms.flatMap fun m => m.header ++ m.payload

/-- The call that a message is to lead to; the registration of a registered process leads
to none. -/
def callOf (q : List Byte × List Byte) : List ServerCall :=
  match MessageParser.parse q.1 with
  | .ok (.invocationResult m) =>
    [.finishInvocation (InvocationResult.invocationId m) (InvocationResult.returnCode m) q.2]
  | .ok (.dataplaneMetrics m) =>
    [.updateMetrics (DataplaneMetrics.computationTime m) (DataplaneMetrics.invocations m)
      (DataplaneMetrics.lastInvocationTimestamp m)]
  | .ok (.swapConfirmation _) => [.swappedProcess]
  | _ => []

theorem wire_eq_stream (ms : List WireMessage) : wire ms = stream (ms.map WireMessage.frame) := by
  simp [wire, stream, List.flatMap_map, Frame.bytes, WireMessage.frame]

/-! ## One call on a registered connection -/

/-- A parsed result is a view of the bytes it was parsed from. -/
theorem parse_invocationResult {hd m : MessagePtr}
    (h : MessageParser.parse hd = .ok (.invocationResult m)) : m = hd := by
  unfold MessageParser.parse at h
  split at h <;> simp_all

theorem parse_of_declared {hd : List Byte} (h : 0 < declared hd) :
    MessageParser.parse hd = .ok (.invocationResult hd) ∧ declared hd = sizeT (totalLength hd) := by
  unfold declared at h ⊢
  split at h
  case h_1 m hparse =>
    have hm := parse_invocationResult hparse
    subst hm
    rw [hparse]
    exact ⟨rfl, rfl⟩
  case h_2 => exact absurd h (lt_irrefl 0)

/-- The connection stands where the abstract parser stands. -/
structure Rep (s : Stream) (p : Parser Byte) : Prop where
  buffer : s.buffer = p.buf
  fresh : p.waiting = none → ∃ hd, s.data = some ⟨hd, 0⟩
  waiting : ∀ hd, p.waiting = some hd → s.data = some ⟨hd, declared hd⟩ ∧ 0 < declared hd

section Passes

variable {pending : Str → Bool} {s : Stream} {hd b payload : List Byte}

theorem rep_fresh {cur : MessagePtr} (hdata : s.data = some ⟨cur, 0⟩) (hbuffer : s.buffer = b) :
    Rep s ⟨none, b⟩ where
  buffer := hbuffer
  fresh _ := ⟨cur, hdata⟩
  waiting hd hwait := by cases hwait

theorem handleOnce_short (h : Rep s ⟨none, b⟩) (hlen : b.length < BUF_SIZE) :
    s.handleOnce pending = .ok (s, false) := by
  rcases h.fresh rfl with ⟨cur, hdata⟩
  unfold Stream.handleOnce
  rw [hdata]
  dsimp only
  rw [if_neg (lt_irrefl 0), if_pos (by rw [h.buffer]; exact hlen)]

/-- A header that is there is dispatched. -/
theorem handleOnce_header {cur : MessagePtr} (hdata : s.data = some ⟨cur, 0⟩)
    (hbuffer : s.buffer = hd ++ b) (hhd : hd.length = BUF_SIZE) {msg : MessageVariants}
    (hparse : MessageParser.parse hd = .ok msg) :
    s.handleOnce pending = .ok (s.dispatch ⟨cur, 0⟩ msg) := by
  have hlen : ¬ s.buffer.length < BUF_SIZE := by
    rw [hbuffer, List.length_append, hhd]
    omega
  have htake : s.buffer.take BUF_SIZE = hd := by rw [hbuffer, ← hhd, List.take_left]
  unfold Stream.handleOnce
  rw [hdata]
  dsimp only
  rw [if_neg (lt_irrefl 0), if_neg hlen, htake, hparse]
  rfl

/-- A result whose payload is not there yet: the header is kept. -/
theorem handleOnce_partial (h : Rep s ⟨none, hd ++ b⟩) (hhd : hd.length = BUF_SIZE)
    (hlen : b.length < declared hd) :
    ∃ t, s.handleOnce pending = .ok (t, false) ∧ Rep t ⟨some hd, b⟩ ∧ t.calls = s.calls := by
  have hpos : 0 < declared hd := by omega
  rcases parse_of_declared hpos with ⟨hparse, hdeclared⟩
  rcases h.fresh rfl with ⟨cur, hdata⟩
  have hdrop : s.buffer.drop BUF_SIZE = b := by rw [h.buffer, ← hhd, List.drop_left]
  rw [handleOnce_header hdata h.buffer hhd hparse]
  have hshort : ¬ sizeT (totalLength hd) ≤ b.length := by omega
  refine ⟨{ s with data := some ⟨hd, sizeT (totalLength hd)⟩, buffer := b }, ?_, ?_, rfl⟩
  · simp only [Stream.dispatch, Stream.handleInvocationResult, if_pos, hdrop, if_neg hshort]
  · constructor
    case buffer => rfl
    case fresh =>
      intro hnone
      cases hnone
    case waiting =>
      intro hd' hwait
      obtain rfl : hd = hd' := Option.some.inj hwait
      exact ⟨by rw [hdeclared], hpos⟩

/-- A complete message leads to its call and is consumed. -/
theorem handleOnce_frame (h : Rep s ⟨none, hd ++ (payload ++ b)⟩) (hhd : hd.length = BUF_SIZE)
    (hwf : lengthField hd = some (payload.length : Int)) :
    ∃ t, s.handleOnce pending = .ok (t, true) ∧ Rep t ⟨none, b⟩ ∧
      t.calls = s.calls ++ callOf (hd, payload) := by
  rcases h.fresh rfl with ⟨cur, hdata⟩
  have hdrop : s.buffer.drop BUF_SIZE = payload ++ b := by
    rw [h.buffer, ← hhd, List.drop_left]
  have hdeclared := length_of_lengthField hwf
  have hempty : declared hd = 0 → payload ++ b = b := by
    intro hzero
    rw [hzero] at hdeclared
    rw [List.length_eq_zero_iff.1 hdeclared, List.nil_append]
  unfold lengthField at hwf
  unfold declared at hdeclared hempty
  unfold callOf
  -- only a result has a payload; the other messages that are known are empty
  split at hwf
  case h_1 m hparse =>
    obtain rfl : m = hd := parse_invocationResult hparse
    rw [hparse] at hdeclared
    dsimp only at hdeclared
    rw [handleOnce_header hdata h.buffer hhd hparse, hparse]
    have hlen : sizeT (totalLength m) ≤ (payload ++ b).length := by simp [← hdeclared]
    have hrep : Rep ⟨some ⟨m, 0⟩, b, s.calls ++ [.finishInvocation
        (InvocationResult.invocationId m) (InvocationResult.returnCode m) payload]⟩ ⟨none, b⟩ :=
      rep_fresh rfl rfl
    refine ⟨_, ?_, hrep, rfl⟩
    simp only [Stream.dispatch, Stream.handleInvocationResult, if_pos, hdrop, if_pos hlen]
    rw [← hdeclared, List.drop_left, List.take_left]
  case h_2 m hparse =>
    rw [hparse] at hempty
    rw [handleOnce_header hdata h.buffer hhd hparse, hparse]
    exact ⟨_, rfl, rep_fresh hdata (hdrop.trans (hempty rfl)), rfl⟩
  case h_3 m hparse =>
    rw [hparse] at hempty
    rw [handleOnce_header hdata h.buffer hhd hparse, hparse]
    exact ⟨_, rfl, rep_fresh hdata (hdrop.trans (hempty rfl)), rfl⟩
  case h_4 m hparse =>
    rw [hparse] at hempty
    rw [handleOnce_header hdata h.buffer hhd hparse, hparse]
    exact ⟨_, rfl, rep_fresh hdata (hdrop.trans (hempty rfl)), (List.append_nil _).symm⟩
  case h_5 => cases hwf

/-- A pass that waits for a payload parses the kept header. -/
theorem handleOnce_resumed (h : Rep s ⟨some hd, b⟩) :
    s.handleOnce pending = .ok (s.handleInvocationResult ⟨hd, declared hd⟩ hd) := by
  rcases h.waiting hd rfl with ⟨hdata, hpos⟩
  unfold Stream.handleOnce
  rw [hdata]
  dsimp only
  rw [if_pos hpos, (parse_of_declared hpos).1]
  rfl

theorem handleOnce_waiting (h : Rep s ⟨some hd, b⟩) (hlen : b.length < declared hd) :
    s.handleOnce pending = .ok (s, false) := by
  rcases h.waiting hd rfl with ⟨hdata, hpos⟩
  have hne : declared hd ≠ 0 := by omega
  have hshort : ¬ declared hd ≤ s.buffer.length := by
    rw [h.buffer]
    exact not_le_of_gt hlen
  rw [handleOnce_resumed h]
  unfold Stream.handleInvocationResult
  simp only [if_neg hne, if_neg hshort]
  rw [← hdata]

/-- The awaited payload is there: the call is the one the header asks for. -/
theorem handleOnce_complete (h : Rep s ⟨some hd, payload ++ b⟩)
    (hlen : payload.length = declared hd) :
    ∃ t, s.handleOnce pending = .ok (t, true) ∧ Rep t ⟨none, b⟩ ∧
      t.calls = s.calls ++ callOf (hd, payload) := by
  rcases h.waiting hd rfl with ⟨hdata, hpos⟩
  have hne : declared hd ≠ 0 := by omega
  have hbuffer : s.buffer = payload ++ b := h.buffer
  have hfull : declared hd ≤ (payload ++ b).length := by simp [← hlen]
  have hcall : callOf (hd, payload) = [.finishInvocation (InvocationResult.invocationId hd)
      (InvocationResult.returnCode hd) payload] := by
    unfold callOf
    rw [(parse_of_declared hpos).1]
  rw [handleOnce_resumed h, hcall]
  have hrep : Rep ⟨some ⟨hd, 0⟩, b, s.calls ++ [.finishInvocation
      (InvocationResult.invocationId hd) (InvocationResult.returnCode hd) payload]⟩ ⟨none, b⟩ :=
    rep_fresh rfl rfl
  refine ⟨_, ?_, hrep, rfl⟩
  unfold Stream.handleInvocationResult
  simp only [if_neg hne, hbuffer, if_pos hfull]
  rw [← hlen, List.drop_left, List.take_left]

end Passes

/-! ## The recursion -/

/-- What came of a call that was to deliver the messages `qs` and to leave the parser
at `p`. -/
def Outcome (s : Stream) (res : Except Fault Stream) (p : Parser Byte)
    (qs : List (List Byte × List Byte)) : Prop :=
  ∃ s', res = .ok s' ∧ Rep s' p ∧ s'.calls = s.calls ++ qs.flatMap callOf

section Calls

variable {pending : Str → Bool}

/-- A call that does nothing more. -/
theorem outcome_stop {s t : Stream} {p : Parser Byte} {consumed : Bool}
    (honce : s.handleOnce pending = .ok (t, consumed)) (hstop : consumed = false ∨ t.buffer = [])
    (hrep : Rep t p) (hcalls : t.calls = s.calls) :
    Outcome s (s.handleMessage pending) p [] :=
  ⟨t, Stream.handleMessage_stop honce hstop, hrep, by rw [hcalls]; simp⟩

/-- After a pass that has consumed a message, the call goes on from the rest of the
buffer; an empty one it does not look at. -/
theorem outcome_cons {s t : Stream} {p : Parser Byte} {q : List Byte × List Byte}
    {qs : List (List Byte × List Byte)} {b : List Byte}
    (honce : s.handleOnce pending = .ok (t, true)) (hrep : Rep t ⟨none, b⟩)
    (hcalls : t.calls = s.calls ++ callOf q)
    (hrest : Outcome t (t.handleMessage pending) p qs) :
    Outcome s (s.handleMessage pending) p (q :: qs) := by
  rcases hrest with ⟨t', ht', hrep', hcalls'⟩
  have hsame : s.handleMessage pending = t.handleMessage pending := by
    rcases eq_or_ne t.buffer [] with hempty | hleft
    · have hlen : b.length < BUF_SIZE := by
        obtain rfl : b = [] := hrep.buffer.symm.trans hempty
        decide
      have hshort : t.handleOnce pending = .ok (t, false) := handleOnce_short hrep hlen
      rw [Stream.handleMessage_stop honce (Or.inr hempty),
        Stream.handleMessage_stop hshort (Or.inl rfl)]
    · exact Stream.handleMessage_go honce hleft
  refine ⟨t', by rw [hsame, ht'], hrep', ?_⟩
  rw [hcalls', hcalls, List.flatMap_cons, List.append_assoc]

/-- `handle_message` on an idle connection does what draining the buffer does. -/
theorem handleMessage_drain {fs : List (Frame format)} {b tail : List Byte} {s : Stream}
    (hb : b ++ tail = stream fs)
    (hwf : ∀ f ∈ fs, lengthField f.header = some (f.payload.length : Int))
    (h : Rep s ⟨none, b⟩) :
    Outcome s (s.handleMessage pending) (drain format b).1 (drain format b).2 := by
  induction fs generalizing b s with
  | nil =>
    obtain rfl : b = [] := (List.append_eq_nil_iff.1 hb).1
    rw [drain_nil]
    exact outcome_stop (handleOnce_short h (by decide)) (Or.inl rfl) h rfl
  | cons f fs ih =>
    rcases prefix_cases hb with hshort | ⟨b', rfl, hpay⟩ | ⟨b', rfl, hrest⟩
    · -- not even the header is there
      rw [drain_short hshort]
      exact outcome_stop (handleOnce_short h hshort) (Or.inl rfl) h rfl
    · -- the header is there, the payload is not
      rw [drain_header hpay]
      rw [f.payload_length] at hpay
      rcases handleOnce_partial h f.header_length hpay with ⟨t, honce, hrep, hcalls⟩
      exact outcome_stop honce (Or.inl rfl) hrep hcalls
    · -- the whole message is there
      rw [drain_frame]
      rcases handleOnce_frame h f.header_length (hwf f (List.mem_cons_self ..)) with
        ⟨t, honce, hrep, hcalls⟩
      apply outcome_cons honce hrep hcalls
      exact ih hrest (fun g hg => hwf g (List.mem_cons_of_mem _ hg)) hrep

/-- One call of `handle_message` does what the parser does that goes on after a resumed
payload. -/
theorem receive_simulates (s : Stream) (p : Parser Byte) (c rest : List Byte)
    (todo : List (Frame format)) (howes : Owes (c ++ rest) p todo)
    (hwf : ∀ f ∈ todo, lengthField f.header = some (f.payload.length : Int)) (h : Rep s p) :
    Outcome s (s.receive pending c) (call format true p c).1 (call format true p c).2 := by
  have happ : Rep { s with buffer := s.buffer ++ c } ⟨p.waiting, p.buf ++ c⟩ := by
    constructor
    case buffer => exact congrArg (· ++ c) h.buffer
    case fresh => exact h.fresh
    case waiting => exact h.waiting
  cases howes with
  | idle b _ hb =>
    have hb' : (b ++ c) ++ rest = stream todo := by
      rw [List.append_assoc]
      exact hb
    exact handleMessage_drain hb' hwf happ
  | waiting f b fs hshort hb =>
    by_cases hmore : (b ++ c).length < format.declared f.header
    · -- the payload is still not there
      have hcall : call format true ⟨some f.header, b⟩ c = (⟨some f.header, b ++ c⟩, []) := by
        simp only [call]
        rw [if_pos hmore]
      rw [hcall]
      exact outcome_stop (handleOnce_waiting happ hmore) (Or.inl rfl) happ rfl
    · -- the payload is complete; what follows it is drained
      have hrest : (b ++ c) ++ rest = f.payload ++ stream fs := by
        rw [List.append_assoc]
        exact hb
      rw [← f.payload_length] at hmore
      rcases exists_append_of_prefix hrest (not_lt.1 hmore) with ⟨b', hb'⟩
      dsimp only at happ
      rw [hb', List.append_assoc, List.append_cancel_left_eq] at hrest
      have hcall : call format true ⟨some f.header, b⟩ c =
          ((drain format b').1, f.parts :: (drain format b').2) := by
        simp only [call]
        rw [hb', ← f.payload_length, if_neg (by simp), List.drop_left, List.take_left]
        rfl
      rw [hb'] at happ
      rcases handleOnce_complete happ f.payload_length with ⟨t, honce, hrep, hcalls⟩
      rw [hcall]
      apply outcome_cons honce hrep hcalls
      exact handleMessage_drain hrest (fun g hg => hwf g (List.mem_cons_of_mem _ hg)) hrep

end Calls

/-! ## Whole streams -/

/-- **Chunking.** However the messages on a registered connection are cut into chunks,
each followed by one call of `handle_message`, they lead to the calls of the messages, in
order, and the connection ends idle with an empty buffer. -/
theorem chunks_delivered (pending : Str → Bool) (s : Stream) (cur : MessagePtr)
    (hdata : s.data = some ⟨cur, 0⟩) (hbuffer : s.buffer = []) (ms : List WireMessage)
    (cs : List (List Byte)) (hcs : cs.flatten = wire ms) :
    ∃ s' last, Lts.run (fun s c => s.receive pending c) s cs = .ok s' ∧
      s'.calls = s.calls ++ ms.flatMap (fun m => callOf (m.header, m.payload)) ∧
      s'.data = some ⟨last, 0⟩ ∧ s'.buffer = [] := by
  have hstream : cs.flatten = stream (ms.map WireMessage.frame) := by rw [hcs, wire_eq_stream]
  have howes : Owes cs.flatten Parser.idle (ms.map WireMessage.frame) :=
    Owes.idle [] _ (by rw [hstream, List.nil_append])
  have hwf : ∀ f ∈ ms.map WireMessage.frame,
      lengthField f.header = some (f.payload.length : Int) := by
    intro f hf
    rcases List.mem_map.1 hf with ⟨m, -, rfl⟩
    exact m.wellFormed
  have hcall : ∀ (s : Stream) (p : Parser Byte) (c rest : List Byte) (todo : List (Frame format)),
      Owes (c ++ rest) p todo →
      (∀ f ∈ todo, lengthField f.header = some (f.payload.length : Int)) → Rep s p →
      (∃ s', s.receive pending c = .ok s' ∧ Rep s' (call format true p c).1 ∧
        s'.calls = s.calls ++ (call format true p c).2.flatMap callOf ∧
        ∀ q ∈ (call format true p c).2, True) ∨
      (∃ x, s.receive pending c = .error x ∧ ∃ f ∈ todo, ¬ True) := by
    intro s p c rest todo howes hwf hrep
    rcases receive_simulates s p c rest todo howes hwf hrep with ⟨s', hs', hrep', hcalls⟩
    exact Or.inl ⟨s', hs', hrep', hcalls, fun _ _ => trivial⟩
  rcases feed_simulation hcall cs s Parser.idle _ howes hwf (rep_fresh hdata hbuffer) with
    ⟨s', hs', hrep, hcalls, -⟩ | ⟨x, -, f, -, hbad⟩
  · rw [feed_again _ _ hstream] at hrep hcalls
    rcases hrep.fresh rfl with ⟨last, hlast⟩
    refine ⟨s', last, hs', ?_, hlast, hrep.buffer⟩
    rw [hcalls]
    simp [List.flatMap_map, Frame.parts, WireMessage.frame]
  · exact absurd trivial hbad

/-- A result with two bytes of payload. -/
def sampleResult : WireMessage where
  header := [5, 0, 2, 0, 0, 0] ++ List.replicate 64 0
  payload := [1, 2]
  header_length := by decide
  wellFormed := by decide

/-- A confirmation of a swap. -/
def sampleSwapped : WireMessage where
  header := [3, 0] ++ List.replicate 68 0
  payload := []
  header_length := by decide
  wellFormed := by decide

/-- The payload is cut in two, and its end arrives with the next header. -/
theorem chunks_delivered_inside_payload :
    ∃ s' last, Lts.run (fun s c => Stream.receive (fun _ => false) s c) ⟨some {}, [], []⟩
        [sampleResult.header ++ [1], [2] ++ sampleSwapped.header] = .ok s' ∧
      s'.calls = [] ++ [sampleResult, sampleSwapped].flatMap
        (fun m => callOf (m.header, m.payload)) ∧
      s'.data = some ⟨last, 0⟩ ∧ s'.buffer = [] :=
  chunks_delivered (fun _ => false) ⟨some {}, [], []⟩ (List.replicate BUF_SIZE 0) rfl rfl
    [sampleResult, sampleSwapped] _ (by decide)

end Praas.ControlPlane.TcpStream
