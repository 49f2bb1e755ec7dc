import Praas.Common.WireFormat
import Praas.Process.RemoteStream
import Praas.Process.RemoteSends
import Praas.Process.Channel

/-! # Lengths of payloads

The length of a payload is a `size_t`; the header keeps it as an `int32_t`, and the receiver
counts as a `size_t` again. The queues to the workers keep it the same way, and count what
they send as an `int`. Of all setters only that of the payload size checks the sign.

* `header_made`: which requests the sender rejects, and the length field of the others.
* `receive_header`: a header makes an idle connection wait for what it declares.
* `survives_iff`, `queued_iff`, `honoured_iff`: the payloads that survive on a connection and
  on a queue, and the headers that do.
-/

namespace Praas.Process.PayloadLengths

open Praas.Message Remote TCPServer Framing

/-! ## What is handed to the server -/

/-- What a worker or a peer has the server send, without its payload. -/
inductive Request where
  | put (processId : Str) (name : StringView)
  | invoke (processId : Str) (functionName invocationId : StringView)
  | result (source : RemoteType) (remoteProcess : Option Str) (invocationId : StringView)
      (returnCode : Int)

namespace Request

def call (s : TCPServer) (payload : List Byte) : Request → Except Fault TCPServer
  | put processId name => s.putMessage processId name payload
  | invoke processId functionName invocationId =>
    s.invocationRequest processId functionName invocationId payload
  | result source remoteProcess invocationId returnCode =>
    s.invocationResult source remoteProcess invocationId returnCode payload

/-- Whom it goes to. -/
def target (s : TCPServer) : Request → Option Ref
  | put processId _ => s.connectionData processId
  | invoke processId _ _ => s.connectionData processId
  | result source remoteProcess _ _ => s.resultConnection source remoteProcess

def header (s : TCPServer) (payload : List Byte) : Request → Except Fault MessageData
  | put _ name => putHeader s.processId name payload
  | invoke _ functionName invocationId => requestHeader functionName invocationId payload
  | result _ _ invocationId returnCode => resultHeader invocationId returnCode payload

/-- A string of the header is longer than its field. -/
def TooLong (s : TCPServer) : Request → Prop
  | put _ name => NAME_LENGTH < name.length ∨ NAME_LENGTH < s.processId.length
  | invoke _ functionName invocationId =>
    ID_LENGTH < invocationId.length ∨ NAME_LENGTH < functionName.length
  | result _ _ invocationId _ => ID_LENGTH < invocationId.length

instance (s : TCPServer) : (k : Request) → Decidable (k.TooLong s)
  | put .. => inferInstanceAs (Decidable (_ ∨ _))
  | invoke .. => inferInstanceAs (Decidable (_ ∨ _))
  | result .. => inferInstanceAs (Decidable (_ < _))

/-- The header has the length in the field of the payload size, too. -/
def HasPayloadSize : Request → Prop
  | invoke .. => True
  | put .. | result .. => False

/-- Without a connection, the message is stored until there is one. -/
def IsStored : Request → Prop
  | put .. | invoke .. => True
  | result .. => False

end Request

/-- The server knows the peer that the request goes to, and can reach it or store the
message. -/
structure Peer (s : TCPServer) (k : Request) where
  ref : Ref
  target : k.target s = some ref
  reached : k.IsStored ∨ ∃ t, (s.heap ref).conn = some t

/-- The message is written to the peer, or stored for it. -/
def Passed (s s' : TCPServer) (r : Ref) (m : Remote.Outgoing) : Prop :=
  match (s.heap r).conn with
  | some t => ∃ sends, s'.sent = s.sent ++ sends ∧ texts sends = parts m ∧ ∀ w ∈ sends, w.1 = t
  | none => (s'.heap r).pendingMsgs = (s.heap r).pendingMsgs ++ [m]

/-! ## What is awaited -/

/-- An idle connection that gets the header waits for exactly the payload, whose length is an
`int32_t`, and hands on the message however it arrives. -/
structure Awaited (hd : MessageData) (payload : List Byte) : Prop where
  waits : ∀ (s : TCPServer) (t : TcpId) (r : Ref), Registered s t r → Idle s t r →
    ∀ s', s.receive t hd.buf = .ok s' →
      (s'.heap r).bytesToRead = payload.length ∧ payload.length < 2 ^ 31
  delivered : ∀ (s : TCPServer) (t : TcpId) (r : Ref), Registered s t r → Idle s t r →
    Takes (s.heap r).type (s.heap r).id hd.buf → ∀ cs, cs.flatten = hd.buf ++ payload →
      ∃ s', Lts.run (fun s c => s.receive t c) s cs = .ok s' ∧
        s'.handed = s.handed ++ (handedOf (hd.buf, payload)).map (t, ·) ∧
        Registered s' t r ∧ Idle s' t r

/-- The sender rejects the payload, or passes on a message of which it is a part and that is
awaited. -/
def Survives (s : TCPServer) (k : Request) (p : Peer s k) (payload : List Byte) : Prop :=
  (∃ e, k.call s payload = .error e) ∨
    ∃ s' hd, k.call s payload = .ok s' ∧ Passed s s' p.ref (hd.buf, payload) ∧
      handedOf (hd.buf, payload) = [.message hd.buf payload] ∧ Awaited hd payload

/-- No connection that gets the header waits for more than an `int32_t`, and a payload of the
length in its field is awaited. -/
structure Honoured (hd : MessageData) : Prop where
  waits : ∀ (s : TCPServer) (t : TcpId) (r : Ref), Registered s t r → Idle s t r →
    ∀ s', s.receive t hd.buf = .ok s' → (s'.heap r).bytesToRead < 2 ^ 31
  awaited : ∀ payload : List Byte, lengthField hd.buf = some (payload.length : Int) →
    Awaited hd payload

/-- Both ways of receiving return the payload that was sent on a queue, from a reader that is
between two messages. -/
structure Queued (size : Ipc.MsgSize) (msg : Ipc.Message) (body : Ipc.Body) : Prop where
  received : ∀ c : Ipc.POSIXMQChannel, c.msgRead = false → c.msgPayload = none →
    c.buffers.length ≤ Ipc.BUFFER_ELEMS → ∀ ready, (Ipc.send size msg body).2.length ≤ ready →
      ∃ c', c.receive size (Ipc.send size msg body).2 ready = .ok (c', [], some body.payload)
  blocking : ∀ c : Ipc.POSIXMQChannel, c.msgRead = false → c.msgPayload = none →
    c.buffers.length ≤ Ipc.BUFFER_ELEMS → ∀ buf, ∃ c' n,
      c.blockingReceive size (Ipc.send size msg body).2 buf =
        .ok (some (c', [], ⟨n, body.payload⟩, true))

/-! ## The headers of the requests -/

section Headers

variable {m : MessageData}

theorem setStr_cases (m : MessageData) (what : String) {off limit : ℕ}
    (h : off + limit ≤ BUF_SIZE) (hoff : 2 ≤ off) (v : StringView) :
    (limit < v.length ∧ ∃ e, m.setStr what off limit h v = .error e) ∨
      (¬ limit < v.length ∧ ∃ m', m.setStr what off limit h v = .ok m' ∧
        m'.buf.take 2 = m.buf.take 2) := by
  have hinside : off ≤ m.buf.length := by
    rw [m.length_buf]
    omega
  by_cases hlong : limit < v.length
  · exact Or.inl ⟨hlong, _, if_pos hlong⟩
  · exact Or.inr ⟨hlong, _, if_neg hlong, take_splice hoff hinside⟩

theorem take_setTotalLength (m : MessageData) (x : Int) :
    (m.setTotalLength x).buf.take 2 = m.buf.take 2 := by
  apply take_splice (le_refl 2)
  rw [m.length_buf]
  decide

theorem totalLength_setTotalLength (m : MessageData) {x : Int} (hmin : -2 ^ 31 ≤ x)
    (hmax : x < 2 ^ 31) : totalLength (m.setTotalLength x).buf = x := by
  apply readInt32_splice _ hmin hmax
  rw [m.length_buf]
  decide

/-- The payload size stands behind the length that every header has. -/
theorem payloadSize_setTotalLength (m : MessageData) (x : Int) :
    InvocationRequest.payloadSize (m.setTotalLength x).buf =
      InvocationRequest.payloadSize m.buf := by
  have hdrop : (m.setTotalLength x).buf.drop HEADER_OFFSET = m.buf.drop HEADER_OFFSET := by
    apply drop_splice
    · rw [length_int32Bytes]
      decide
    · rw [m.length_buf]
      decide
  unfold InvocationRequest.payloadSize readInt32
  rw [hdrop]

/-- The setter that checks the sign. -/
theorem setPayloadSize_cases (m : MessageData) {x : Int} (hmin : -2 ^ 31 ≤ x)
    (hmax : x < 2 ^ 31) :
    (x < 0 ∧ ∃ e, InvocationRequest.setPayloadSize m x = .error e) ∨
      (¬ x < 0 ∧ ∃ m', InvocationRequest.setPayloadSize m x = .ok m' ∧
        m'.buf.take 2 = m.buf.take 2 ∧ InvocationRequest.payloadSize m'.buf = x) := by
  have hinside : HEADER_OFFSET + 4 ≤ m.buf.length := by
    rw [m.length_buf]
    decide
  by_cases hneg : x < 0
  · exact Or.inl ⟨hneg, _, if_pos hneg⟩
  · refine Or.inr ⟨hneg, _, if_neg hneg, ?_, readInt32_splice hinside hmin hmax⟩
    exact take_splice (by decide) (by omega)

theorem fields_setTotalLength {t : MessageType} (ht : t = .invocationResult ∨ t = .putMessage)
    (htype : m.buf.take 2 = leBytes 2 t.code) {x : Int} (hmin : -2 ^ 31 ≤ x) (hmax : x < 2 ^ 31) :
    HasPayload (m.setTotalLength x).buf ∧ lengthField (m.setTotalLength x).buf = some x := by
  have htotal := totalLength_setTotalLength m hmin hmax
  have htype' := (take_setTotalLength m x).trans htype
  unfold HasPayload lengthField
  rcases ht with rfl | rfl
  · rw [parse_of_type (by decide) htype']
    exact ⟨trivial, congrArg some htotal⟩
  · rw [parse_of_type (by decide) htype']
    exact ⟨trivial, congrArg some htotal⟩

/-- For an invocation, the length is read from the payload size. -/
theorem fields_invocation (htype : m.buf.take 2 = leBytes 2 MessageType.invocationRequest.code)
    (x : Int) : HasPayload (m.setTotalLength x).buf ∧
      lengthField (m.setTotalLength x).buf = some (InvocationRequest.payloadSize m.buf) := by
  have htype' := (take_setTotalLength m x).trans htype
  unfold HasPayload lengthField
  rw [parse_of_type (by decide) htype']
  exact ⟨trivial, congrArg some (payloadSize_setTotalLength m x)⟩

/-- What comes of a header: it is rejected, or has the length in the field that is read. -/
def Made (rejected : Prop) (n : ℕ) (res : Except Fault MessageData) : Prop :=
  (rejected ∧ ∃ e, res = .error e) ∨
    (¬ rejected ∧ ∃ hd, res = .ok hd ∧ HasPayload hd.buf ∧ lengthField hd.buf = some (toInt32 n))

theorem made_put (own : Str) (name : StringView) (payload : List Byte) :
    Made (NAME_LENGTH < name.length ∨ NAME_LENGTH < own.length) payload.length
      (putHeader own name payload) := by
  unfold putHeader PutMessage.setName
  rcases setStr_cases (.new .putMessage) "Message name too long"
    (by decide : HEADER_OFFSET + NAME_LENGTH ≤ BUF_SIZE) (by decide) name with
    ⟨hname, e, he⟩ | ⟨hname, m, hm, htype⟩
  · rw [he]
    exact Or.inl ⟨Or.inl hname, e, rfl⟩
  · rw [hm]
    simp only [bind, Except.bind, PutMessage.setProcessId]
    rcases setStr_cases m "Invocation ID too long"
      (by decide : HEADER_OFFSET + NAME_LENGTH + NAME_LENGTH ≤ BUF_SIZE) (by decide)
      (.ofStr own) with ⟨hid, e, he⟩ | ⟨hid, m', hm', htype'⟩
    · rw [he]
      exact Or.inl ⟨Or.inr hid, e, rfl⟩
    · rw [hm']
      refine Or.inr ⟨not_or.2 ⟨hname, hid⟩, _, rfl, ?_⟩
      exact fields_setTotalLength (Or.inr rfl) (htype'.trans (htype.trans (MessageData.take_new _)))
        (toInt32_ge _) (toInt32_lt _)

theorem made_invoke (functionName invocationId : StringView) (payload : List Byte) :
    Made ((ID_LENGTH < invocationId.length ∨ NAME_LENGTH < functionName.length) ∨
        toInt32 payload.length < 0) payload.length
      (requestHeader functionName invocationId payload) := by
  unfold requestHeader InvocationRequest.setInvocationId
  rcases setStr_cases (.new .invocationRequest) "Invocation ID too long"
    (by decide : HEADER_OFFSET + NAME_LENGTH + 4 + ID_LENGTH ≤ BUF_SIZE) (by decide)
    invocationId with ⟨hid, e, he⟩ | ⟨hid, m, hm, htype⟩
  · rw [he]
    exact Or.inl ⟨Or.inl (Or.inl hid), e, rfl⟩
  · rw [hm]
    simp only [bind, Except.bind, InvocationRequest.setFunctionName]
    rcases setStr_cases m "Function name too long"
      (by decide : HEADER_OFFSET + 4 + NAME_LENGTH ≤ BUF_SIZE) (by decide) functionName with
      ⟨hname, e, he⟩ | ⟨hname, m', hm', htype'⟩
    · rw [he]
      exact Or.inl ⟨Or.inl (Or.inr hname), e, rfl⟩
    · rw [hm']
      rcases setPayloadSize_cases m' (toInt32_ge payload.length) (toInt32_lt payload.length) with
        ⟨hneg, e, he⟩ | ⟨hpos, m'', hm'', htype'', hsize⟩
      · simp only [he]
        exact Or.inl ⟨Or.inr hneg, e, rfl⟩
      · simp only [hm'']
        refine Or.inr ⟨not_or.2 ⟨not_or.2 ⟨hid, hname⟩, hpos⟩, _, rfl, ?_⟩
        have hnew := htype''.trans (htype'.trans (htype.trans (MessageData.take_new _)))
        have hfields := fields_invocation hnew (toInt32 payload.length)
        rwa [hsize] at hfields

theorem made_result (invocationId : StringView) (returnCode : Int) (payload : List Byte) :
    Made (ID_LENGTH < invocationId.length) payload.length
      (resultHeader invocationId returnCode payload) := by
  unfold resultHeader InvocationResult.setInvocationId
  rcases setStr_cases (.new .invocationResult) "Invocation ID too long"
    (by decide : HEADER_OFFSET + 4 + ID_LENGTH ≤ BUF_SIZE) (by decide) invocationId with
    ⟨hid, e, he⟩ | ⟨hid, m, hm, htype⟩
  · rw [he]
    exact Or.inl ⟨hid, e, rfl⟩
  · rw [hm]
    refine Or.inr ⟨hid, _, rfl, ?_⟩
    have hcode : (InvocationResult.setReturnCode m returnCode).buf.take 2 = m.buf.take 2 := by
      apply take_splice (by decide)
      rw [m.length_buf]
      decide
    exact fields_setTotalLength (Or.inl rfl) (hcode.trans (htype.trans (MessageData.take_new _)))
      (toInt32_ge _) (toInt32_lt _)

/-- The requests that the sender rejects, and the length field of the others. -/
theorem header_made (s : TCPServer) (k : Request) (payload : List Byte) :
    Made (k.TooLong s ∨ k.HasPayloadSize ∧ toInt32 payload.length < 0) payload.length
      (k.header s payload) := by
  cases k with
  | put processId name =>
    have hmade := made_put s.processId name payload
    rwa [← or_false (_ ∨ _), ← false_and (toInt32 payload.length < 0)] at hmade
  | invoke processId functionName invocationId =>
    have hmade := made_invoke functionName invocationId payload
    rwa [← true_and (toInt32 payload.length < 0)] at hmade
  | result source remoteProcess invocationId returnCode =>
    have hmade := made_result invocationId returnCode payload
    rwa [← or_false (_ < _), ← false_and (toInt32 payload.length < 0)] at hmade

end Headers

/-! ## What the requests pass on -/

section Calls

variable {s : TCPServer} {k : Request} {payload : List Byte} {hd : MessageData}

theorem passed_sendOrStore (s : TCPServer) (r : Ref) (hd : MessageData) (payload : List Byte) :
    Passed s (s.sendOrStore r hd payload) r (hd.buf, payload) := by
  unfold Passed
  cases hconn : (s.heap r).conn with
  | none => exact (sendOrStore_stored hconn hd payload).2.2.2
  | some t =>
    rw [sendOrStore_sent hconn]
    refine ⟨[(t, hd.buf), (t, payload)], ?_, texts_send t (hd.buf, payload), by simp⟩
    simp

/-- An empty payload of a result is not written. -/
theorem passed_result {r : Ref} {t : TcpId} (hconn : (s.heap r).conn = some t) :
    Passed s (if 0 < payload.length then (s.send t hd.buf).send t payload else s.send t hd.buf) r
      (hd.buf, payload) := by
  unfold Passed
  rw [hconn]
  by_cases hpos : 0 < payload.length
  · rw [if_pos hpos]
    refine ⟨[(t, hd.buf), (t, payload)], ?_, texts_send t (hd.buf, payload), by simp⟩
    simp
  · rw [if_neg hpos]
    exact ⟨[(t, hd.buf)], rfl, texts_header t (m := (hd.buf, payload)) hpos, by simp⟩

theorem invocationResult_eq {source : RemoteType} {remoteProcess : Option Str} {r : Ref}
    {t : TcpId} (hr : s.resultConnection source remoteProcess = some r)
    (hconn : (s.heap r).conn = some t) (invocationId : StringView) (returnCode : Int)
    (payload : List Byte) :
    s.invocationResult source remoteProcess invocationId returnCode payload =
      (resultHeader invocationId returnCode payload).map fun hd =>
        if 0 < payload.length then (s.send t hd.buf).send t payload else s.send t hd.buf := by
  unfold invocationResult
  simp only [hr, hconn]
  cases resultHeader invocationId returnCode payload with
  | error e => rfl
  | ok hd => rfl

/-- A request whose header is made passes it on with the payload; any other raises. -/
theorem call_eq (p : Peer s k) (payload : List Byte) :
    ∃ pass : MessageData → TCPServer, k.call s payload = (k.header s payload).map pass ∧
      ∀ hd, Passed s (pass hd) p.ref (hd.buf, payload) := by
  rcases p with ⟨r, htarget, hreached⟩
  cases k with
  | put processId name =>
    exact ⟨_, putMessage_eq htarget name payload, fun hd => passed_sendOrStore s r hd payload⟩
  | invoke processId functionName invocationId =>
    exact ⟨_, invocationRequest_eq htarget functionName invocationId payload,
      fun hd => passed_sendOrStore s r hd payload⟩
  | result source remoteProcess invocationId returnCode =>
    rcases hreached with hstored | ⟨t, hconn⟩
    · exact hstored.elim
    · exact ⟨_, invocationResult_eq htarget hconn invocationId returnCode payload,
        fun hd => passed_result hconn⟩

end Calls

/-! ## What a header makes a connection wait for -/

/-- The field is an `int32_t`, and what is waited for is its value as a `size_t`. -/
theorem lengthField_spec {hd : List Byte} {x : Int} (h : lengthField hd = some x) :
    declared hd = sizeT x ∧ -2 ^ 31 ≤ x ∧ x < 2 ^ 31 := by
  unfold lengthField at h
  unfold declared
  split at h <;> rename_i hparse
  · obtain rfl := Option.some.inj h
    rw [hparse]
    exact ⟨rfl, readInt32_ge _ _, readInt32_lt _ _⟩
  · obtain rfl := Option.some.inj h
    rw [hparse]
    exact ⟨rfl, readInt32_ge _ _, readInt32_lt _ _⟩
  · obtain rfl := Option.some.inj h
    rw [hparse]
    exact ⟨rfl, readInt32_ge _ _, readInt32_lt _ _⟩
  · obtain rfl := Option.some.inj h
    rw [hparse]
    exact ⟨rfl, by decide, by decide⟩
  · obtain rfl := Option.some.inj h
    rw [hparse]
    exact ⟨rfl, by decide, by decide⟩
  · cases h

theorem wellFormed_nil {hd : List Byte} {x : Int} (h : lengthField hd = some x)
    (hzero : declared hd = 0) : WellFormed hd [] := by
  rcases lengthField_spec h with ⟨hdeclared, hmin, hmax⟩
  have hx : x = 0 := by
    rw [hzero] at hdeclared
    unfold sizeT at hdeclared
    omega
  exact h.trans (congrArg some hx)

section Receiver

variable {s s' : TCPServer} {t : TcpId} {r : Ref} {hd : MessageData} {payload : List Byte}

/-- The header stands alone in the buffer. -/
theorem rep_header (hreg : Registered s t r) (hidle : Idle s t r) (hd : MessageData) :
    Rep t r (s.heap r).type (s.heap r).id (s.append t hd.buf) ⟨none, hd.buf ++ []⟩ := by
  rw [List.append_nil]
  exact rep_append hd.buf (rep_idle hreg hidle)

/-- A pass that leaves nothing to look at is the whole call. -/
theorem receive_once {res : Except Fault (TCPServer × Bool)}
    (h : (s.append t hd.buf).handleOnce t = res) (hstop : ∀ q, res = .ok q → q.2 = false) :
    s.receive t hd.buf = res.map Prod.fst := by
  unfold TCPServer.receive handleMessage handleLoop
  rw [h]
  rcases res with e | ⟨s', again⟩
  · rfl
  · obtain rfl : again = false := hstop _ rfl
    rfl

theorem receive_waiting (hreg : Registered s t r) (hidle : Idle s t r)
    (hpos : 0 < declared hd.buf) :
    ∃ s', s.receive t hd.buf = .ok s' ∧ (s'.heap r).bytesToRead = declared hd.buf := by
  rcases handleOnce_partial (rep_header hreg hidle hd) hd.length_buf hpos with
    ⟨s', honce, hrep, -⟩
  refine ⟨s', ?_, (hrep.waiting _ rfl).1⟩
  rw [receive_once honce]
  · rfl
  · intro q hq
    rw [← Except.ok.inj hq]

/-- A header without a payload is handled at once. -/
theorem receive_empty (hreg : Registered s t r) (hidle : Idle s t r)
    (hwf : WellFormed hd.buf []) (h : s.receive t hd.buf = .ok s') :
    (s'.heap r).bytesToRead = 0 := by
  rcases handleOnce_frame (b := []) (rep_header hreg hidle hd) hd.length_buf hwf with
    ⟨s'', honce, hrep, -, -⟩ | ⟨e, honce, -⟩
  · rw [receive_once honce] at h
    · obtain rfl := Except.ok.inj h
      exact hrep.fresh rfl
    · intro q hq
      rw [← Except.ok.inj hq]
      rfl
  · rw [receive_once honce] at h
    · cases h
    · intro q hq
      cases hq

/-- A header of another type is dropped. -/
theorem receive_other (hreg : Registered s t r) (hidle : Idle s t r)
    (hfield : lengthField hd.buf = none) (h : s.receive t hd.buf = .ok s') :
    (s'.heap r).bytesToRead = 0 := by
  have hrep := rep_header hreg hidle hd
  have hbytes := hrep.fresh rfl
  have hbuf : ((s.append t hd.buf).tcp t).buffer = hd.buf := by
    rw [hrep.buffer, List.append_nil]
  unfold lengthField at hfield
  cases hparse : MessageParser.parse hd.buf with
  | error e =>
    have honce : (s.append t hd.buf).handleOnce t = .error e := by
      unfold handleOnce
      simp only [hrep.context, hbytes, Nat.lt_irrefl, if_false, hbuf, hd.length_buf,
        List.take_of_length_le hd.length_buf.le, hparse]
    rw [receive_once honce] at h
    · cases h
    · intro q hq
      cases hq
  | ok v =>
    have honce := handleOnce_header hrep hd.length_buf hparse
    rw [hparse] at hfield
    cases v with
    | swapRequest m | swapConfirmation m | dataplaneMetrics m | processClosure m | monostate =>
      simp only [dispatch, setConn_heap, Function.update_self, Connection.setMsg_parsedMsg,
        Except.map] at honce
      rw [receive_once honce] at h
      · obtain rfl := Except.ok.inj h
        simpa using hbytes
      · intro q hq
        rw [← Except.ok.inj hq]
        simp [hidle.buffer, hd.length_buf]
    | _ => cases hfield

/-- **Waiting.** An idle connection waits for what the header declares. -/
theorem receive_header (hreg : Registered s t r) (hidle : Idle s t r)
    (h : s.receive t hd.buf = .ok s') : (s'.heap r).bytesToRead = declared hd.buf := by
  rcases Nat.eq_zero_or_pos (declared hd.buf) with hzero | hpos
  · rw [hzero]
    cases hfield : lengthField hd.buf with
    | none => exact receive_other hreg hidle hfield h
    | some x =>
      exact receive_empty hreg hidle (wellFormed_nil hfield hzero) h
  · rcases receive_waiting hreg hidle hpos with ⟨s'', hs'', hbytes⟩
    obtain rfl := Except.ok.inj (hs''.symm.trans h)
    exact hbytes

/-- However the message is cut, it is delivered. -/
theorem delivered_of_wellFormed (hreg : Registered s t r) (hidle : Idle s t r)
    (hwf : WellFormed hd.buf payload) (htakes : Takes (s.heap r).type (s.heap r).id hd.buf)
    {cs : List (List Byte)} (hcs : cs.flatten = hd.buf ++ payload) :
    Delivered s t r [⟨hd.buf, payload, hd.length_buf, hwf⟩] cs := by
  let m : WireMessage := ⟨hd.buf, payload, hd.length_buf, hwf⟩
  have hwire : cs.flatten = wire [m] := by simpa [m, wire] using hcs
  -- one message is complete, wherever the chunks end inside it
  have hfeed : feed format false Parser.idle cs = (Parser.idle, [m.frame.parts]) := by
    rcases List.eq_nil_or_concat cs with rfl | ⟨cs', c, rfl⟩
    · have hlen := congrArg List.length hcs
      rw [List.flatten_nil, List.length_append, hd.length_buf] at hlen
      exact absurd hlen.symm (by simp [BUF_SIZE])
    · rw [List.concat_eq_append] at hwire ⊢
      refine (feed_once_iff [m.frame] cs' c (by rw [hwire, wire_eq_stream]; rfl)).2 ?_
      intro i hi
      have hlt := waitAfter_lt hi
      simp only [List.length_singleton] at hlt ⊢
      omega
  rcases run_receive_simulates hwire (rep_idle hreg hidle) with
    ⟨s', hs', hrep', hhanded, -⟩ | ⟨x, -, f, hf, hbad⟩
  · rw [hfeed] at hrep' hhanded
    refine ⟨s', hs', ?_, ⟨hrep'.context, hrep'.allocated⟩, ⟨hrep'.fresh rfl, hrep'.buffer⟩⟩
    rw [hhanded]
    rfl
  · obtain rfl := List.mem_singleton.1 hf
    exact absurd htakes hbad

theorem awaited_of_wellFormed (hwf : WellFormed hd.buf payload) : Awaited hd payload := by
  constructor
  · intro s t r hreg hidle s' h
    have hmax := (lengthField_spec hwf).2.2
    rw [receive_header hreg hidle h, ← hwf.length_eq]
    exact ⟨rfl, by omega⟩
  · intro s t r hreg hidle htakes cs hcs
    simpa [Delivered] using delivered_of_wellFormed hreg hidle hwf htakes hcs

/-- A connection that can take the message takes its header. -/
theorem receive_ok (hreg : Registered s t r) (hidle : Idle s t r)
    (htakes : Takes (s.heap r).type (s.heap r).id hd.buf) {x : Int}
    (hfield : lengthField hd.buf = some x) : ∃ s', s.receive t hd.buf = .ok s' := by
  rcases Nat.eq_zero_or_pos (declared hd.buf) with hzero | hpos
  · have hwf := wellFormed_nil hfield hzero
    have hwhole : [hd.buf].flatten = hd.buf ++ [] := by simp
    rcases delivered_of_wellFormed hreg hidle hwf htakes hwhole with ⟨s', hrun, -⟩
    rcases Lts.run_cons_ok.1 hrun with ⟨s'', hs'', -⟩
    exact ⟨s'', hs''⟩
  · rcases receive_waiting hreg hidle hpos with ⟨s', hs', -⟩
    exact ⟨s', hs'⟩

end Receiver

/-! ## On a connection -/

theorem registered_samplePeer : Registered samplePeer 0 0 := ⟨rfl, by decide⟩

theorem idle_samplePeer : Idle samplePeer 0 0 := ⟨by decide, rfl⟩

/-- A peer that registered under the name of a process can send anything. -/
theorem takes_samplePeer (hd : List Byte) :
    Takes (samplePeer.heap 0).type (samplePeer.heap 0).id hd := by
  have hid : (samplePeer.heap 0).id.isSome = true := by decide
  unfold Takes
  split
  · exact Or.inr (Or.inr hid)
  · exact hid
  · exact hid
  · trivial

section Connection

variable {hd : MessageData} {payload : List Byte}

theorem awaited_iff (hfield : lengthField hd.buf = some (toInt32 payload.length)) :
    Awaited hd payload ↔ payload.length < 2 ^ 31 := by
  constructor
  · intro h
    rcases receive_ok registered_samplePeer idle_samplePeer (takes_samplePeer hd.buf) hfield with
      ⟨s', hs'⟩
    exact (h.waits samplePeer 0 0 registered_samplePeer idle_samplePeer s' hs').2
  · intro h
    rw [toInt32_of_lt h] at hfield
    exact awaited_of_wellFormed hfield

/-- The header that was passed on is the only one. -/
theorem passed_inj {s s' : TCPServer} {r : Ref} {hd' : MessageData}
    (h : Passed s s' r (hd.buf, payload)) (h' : Passed s s' r (hd'.buf, payload)) : hd = hd' := by
  have hhead : ∀ m : MessageData, parts (m.buf, payload) =
      m.buf :: [payload].filter fun bs => 0 < bs.length := by
    intro m
    apply List.filter_cons_of_pos
    rw [decide_eq_true_eq, m.length_buf]
    decide
  have hbuf : hd.buf = hd'.buf := by
    unfold Passed at h h'
    cases hconn : (s.heap r).conn with
    | none =>
      rw [hconn] at h h'
      simpa using h.symm.trans h'
    | some t =>
      rw [hconn] at h h'
      rcases h with ⟨sends, hsent, htexts, -⟩
      rcases h' with ⟨sends', hsent', htexts', -⟩
      have hsends : sends = sends' := List.append_cancel_left (hsent.symm.trans hsent')
      have hparts : parts (hd.buf, payload) = parts (hd'.buf, payload) := by
        rw [← htexts, ← htexts', hsends]
      rw [hhead, hhead] at hparts
      exact (List.cons.inj hparts).1
  cases hd
  cases hd'
  congr

/-- **On a connection.** The payloads that survive are rejected, or below `2 ^ 31` bytes. -/
theorem survives_iff (s : TCPServer) (k : Request) (p : Peer s k) (payload : List Byte) :
    Survives s k p payload ↔
      k.TooLong s ∨ (k.HasPayloadSize ∧ 2 ^ 31 ≤ payload.length % 2 ^ 32) ∨
        payload.length < 2 ^ 31 := by
  rcases call_eq p payload with ⟨pass, hcall, hpassed⟩
  rw [← toInt32_neg_iff, ← or_assoc]
  rcases header_made s k payload with ⟨hrejected, e, he⟩ | ⟨hrejected, hd, hhd, hpay, hfield⟩
  · rw [he] at hcall
    exact ⟨fun _ => Or.inl hrejected, fun _ => Or.inl ⟨e, hcall⟩⟩
  · rw [hhd] at hcall
    constructor
    · rintro (⟨e, he⟩ | ⟨s', hd', hs', hpassed', -, hawaited⟩)
      · cases hcall.symm.trans he
      · obtain rfl := Except.ok.inj (hcall.symm.trans hs')
        obtain rfl := passed_inj (hpassed hd) hpassed'
        exact Or.inr ((awaited_iff hfield).1 hawaited)
    · rintro (habsurd | hlen)
      · exact absurd habsurd hrejected
      · exact Or.inr ⟨_, hd, hcall, hpassed hd, handedOf_payload hpay, (awaited_iff hfield).2 hlen⟩

/-- **Headers.** Exactly the negative length fields make a connection wait for too much. -/
theorem honoured_iff (hd : MessageData) :
    Honoured hd ↔ ∀ x, lengthField hd.buf = some x → 0 ≤ x := by
  constructor
  · intro h x hfield
    by_contra hneg
    rcases lengthField_spec hfield with ⟨hdeclared, hmin, -⟩
    have hhuge := sizeT_of_neg (not_le.1 hneg) hmin
    have hpos : 0 < declared hd.buf := by omega
    rcases receive_waiting registered_samplePeer idle_samplePeer hpos with ⟨s', hs', hbytes⟩
    have hlt := h.waits samplePeer 0 0 registered_samplePeer idle_samplePeer s' hs'
    omega
  · intro h
    refine ⟨?_, fun payload hwf => awaited_of_wellFormed hwf⟩
    intro s t r hreg hidle s' hs'
    rw [receive_header hreg hidle hs']
    cases hfield : lengthField hd.buf with
    | none =>
      rw [← receive_header hreg hidle hs', receive_other hreg hidle hfield hs']
      decide
    | some x =>
      rcases lengthField_spec hfield with ⟨hdeclared, hmin, hmax⟩
      have hvalue := sizeT_of_nonneg (h x hfield) (by omega)
      omega

end Connection

/-! ## On a queue -/

section Queue

open Ipc (POSIXMQChannel Datagram Buffer retrieveBuffer)

variable {size : Ipc.MsgSize} {c c' : POSIXMQChannel} {queue queue' : List Datagram}
  {ready : ℕ} {payload : List Byte}

theorem retrieveBuffer_empty {buffers : List Buffer} (h : ∀ b ∈ buffers, b.data = []) (n : ℕ) :
    (retrieveBuffer buffers n).1.data = [] := by
  unfold retrieveBuffer
  cases buffers with
  | nil => rfl
  | cons b rest =>
    dsimp only
    split_ifs
    · rfl
    · exact h b List.mem_cons_self

/-- Reading a header leaves the buffers alone. -/
theorem readHeader_buffers {next : POSIXMQChannel} {left : ℕ}
    (h : c.readHeader size queue ready = .ok (some (next, left), queue')) :
    next.buffers = c.buffers ∧ next.msgPayload = c.msgPayload := by
  unfold POSIXMQChannel.readHeader at h
  split_ifs at h
  · obtain ⟨hnext, -⟩ := Prod.mk.inj (Except.ok.inj h)
    obtain ⟨rfl, -⟩ := Prod.mk.inj (Option.some.inj hnext)
    exact ⟨rfl, rfl⟩
  · split at h
    · cases h
    · split_ifs at h
      · obtain ⟨hnext, -⟩ := Prod.mk.inj (Except.ok.inj h)
        cases hnext
      · obtain ⟨hnext, -⟩ := Prod.mk.inj (Except.ok.inj h)
        obtain ⟨rfl, -⟩ := Prod.mk.inj (Option.some.inj hnext)
        exact ⟨rfl, rfl⟩

/-- A payload that is read into an empty buffer has the length in the header. -/
theorem readPayload_length_lt (hempty : (c.payloadBuffer size).1.data = [])
    (h : c.readPayload size queue ready = .ok (c', queue', some payload)) :
    payload.length < 2 ^ 31 := by
  unfold POSIXMQChannel.readPayload at h
  split_ifs at h with hpos
  · dsimp only at h
    split at h
    · cases h
    · split_ifs at h with hread
      · have hmax : c.msg.totalLength < 2 ^ 31 := readInt32_lt _ _
        have hvalue := sizeT_of_nonneg hpos.le (by omega)
        have hpayload := congrArg (fun q => q.2.2) (Except.ok.inj h)
        dsimp only at hpayload
        rw [hempty] at hread hpayload
        rw [← Option.some.inj hpayload, List.nil_append, hread]
        simp only [List.length_nil, Nat.cast_zero, sub_zero]
        omega
      · cases congrArg (fun q => q.2.2) (Except.ok.inj h)
  · have hpayload := congrArg (fun q => q.2.2) (Except.ok.inj h)
    rw [← Option.some.inj hpayload]
    decide

/-- What a fresh reader returns is as long as an `int32_t` can say. -/
theorem receive_length_lt (hread : c.msgPayload = none) (hempty : ∀ b ∈ c.buffers, b.data = [])
    (h : c.receive size queue ready = .ok (c', queue', some payload)) :
    payload.length < 2 ^ 31 := by
  unfold POSIXMQChannel.receive at h
  split at h
  · cases h
  · cases congrArg (fun q => q.2.2) (Except.ok.inj h)
  · rename_i next left rest hheader
    rcases readHeader_buffers hheader with ⟨hbuffers, hpayload⟩
    apply readPayload_length_lt _ h
    unfold POSIXMQChannel.payloadBuffer
    rw [hpayload, hread, hbuffers]
    exact retrieveBuffer_empty hempty _

/-- A reader that has received all messages has emptied the queue. -/
theorem queue_nil_of_stands (h : Ipc.Stands size c queue []) : queue = [] := by
  cases h
  rfl

theorem queued_of_lt {msg : Ipc.Message} {body : Ipc.Body} (hlen : body.payload.length < 2 ^ 31) :
    Queued size msg body := by
  have hsend : (Ipc.send size msg body).2 = Ipc.wire size [⟨msg, body, hlen⟩] := by
    have heq := Ipc.Outgoing.send_eq size ⟨msg, body, hlen⟩
    dsimp only at heq
    rw [heq]
    simp [Ipc.wire]
  have hstands : ∀ c : POSIXMQChannel, c.msgRead = false → c.msgPayload = none →
      c.buffers.length ≤ Ipc.BUFFER_ELEMS →
      Ipc.Stands size c (Ipc.wire size [⟨msg, body, hlen⟩]) [⟨msg, body, hlen⟩] :=
    fun _ => Ipc.Stands.between
  constructor
  · intro c hread hpayload hfree ready hready
    rw [hsend] at hready ⊢
    rcases Ipc.receive_stands (hstands c hread hpayload hfree) ready with
      ⟨c', queue', res, hcall, hres⟩
    cases hres
    case incomplete hno _ =>
      -- all datagrams are there
      rcases hno with hshort | hnil
      · omega
      · cases hnil
    case complete o rest htodo _ hrest =>
      obtain ⟨rfl, rfl⟩ := List.cons.inj htodo
      obtain rfl := queue_nil_of_stands hrest
      exact ⟨c', hcall⟩
  · intro c hread hpayload hfree buf
    rw [hsend]
    rcases Ipc.blockingReceive_stands (hstands c hread hpayload hfree) hread buf with
      ⟨hnil, -⟩ | ⟨o, rest, c', queue', n, htodo, hcall, -, hrest⟩
    · cases hnil
    · obtain ⟨rfl, rfl⟩ := List.cons.inj htodo
      obtain rfl := queue_nil_of_stands hrest
      exact ⟨c', n, hcall⟩

/-- **On a queue.** Nothing is rejected, and payloads below `2 ^ 31` bytes are returned. -/
theorem queued_iff (size : Ipc.MsgSize) (msg : Ipc.Message) (body : Ipc.Body) :
    Queued size msg body ↔ body.payload.length < 2 ^ 31 := by
  constructor
  · intro h
    have hempty : ∀ b ∈ POSIXMQChannel.open.buffers, b.data = [] := by
      intro b hb
      rw [List.eq_of_mem_replicate hb]
    rcases h.received POSIXMQChannel.open rfl rfl (List.length_replicate ..).le _ (le_refl _) with
      ⟨c', hcall⟩
    exact receive_length_lt rfl hempty hcall
  · exact queued_of_lt

end Queue

/-! ## All lengths -/

/-- On a connection the payloads below `2 ^ 31` bytes survive, and those that the sender rejects;
only an invocation is rejected for its length, if that is negative as an `int32_t`. On a queue
the payloads below `2 ^ 31` bytes survive, and of the headers those whose length field is not
negative. -/
theorem lengths_survive_iff (s : TCPServer) (k : Request) (p : Peer s k) (payload : List Byte)
    (size : Ipc.MsgSize) (msg : Ipc.Message) (body : Ipc.Body) (hd : MessageData) :
    (Survives s k p payload ↔
      k.TooLong s ∨ (k.HasPayloadSize ∧ 2 ^ 31 ≤ payload.length % 2 ^ 32) ∨
        payload.length < 2 ^ 31) ∧
      (Queued size msg body ↔ body.payload.length < 2 ^ 31) ∧
      (Honoured hd ↔ ∀ x, lengthField hd.buf = some x → 0 ≤ x) :=
  ⟨survives_iff s k p payload, queued_iff size msg body, honoured_iff hd⟩

/-- The registered process of the sample has a connection. -/
def peerPut : Request := .put (str ['p']) (.ofStr (str ['m']))

def peerOfPut : Peer samplePeer peerPut := ⟨0, by decide, Or.inl trivial⟩

/-- A PUT of `2 ^ 31` bytes is accepted, and so is a message of as many on a queue; a header
with the length -1 is waited for. -/
theorem long_payload_accepted :
    ¬ Survives samplePeer peerPut peerOfPut (List.replicate (2 ^ 31) 0) ∧
      ¬ Queued ⟨Ipc.Message.BUF_SIZE, le_refl _⟩ (Ipc.Message.new 0)
        (.accessor (List.replicate (2 ^ 31) 0)) ∧
      ¬ Honoured ((MessageData.new .putMessage).setTotalLength (-1)) := by
  have hlong : (List.replicate (2 ^ 31) (0 : Byte)).length = 2 ^ 31 := List.length_replicate ..
  refine ⟨?_, ?_, ?_⟩
  · rw [survives_iff, hlong]
    rintro (hstring | ⟨hsize, -⟩ | hlt)
    · exact absurd hstring (by decide)
    · exact hsize.elim
    · exact lt_irrefl _ hlt
  · rw [queued_iff, Ipc.Body.payload, hlong]
    exact lt_irrefl _
  · rw [honoured_iff]
    intro h
    exact absurd (h (-1) (by decide)) (by decide)

end Praas.Process.PayloadLengths
