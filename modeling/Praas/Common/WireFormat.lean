import Praas.Common.Fields
import Praas.Common.Messages

/-! # The round trip of the 70-byte headers

Every message type keeps its fields in one buffer, at offsets written by hand into its
setters and getters. `format` collects the offsets in one place; the source's setters and
getters are stores and loads of that format, and fields of one type never overlap.
-/

namespace Praas.Message

open Header (Kind Format)

/-! ## The fields of each type -/

inductive Field : MessageType → Type
  | totalLength {t : MessageType} : Field t
  | processName : Field .processConnection
  | path : Field .swapRequest
  | swapSize : Field .swapConfirmation
  | payloadSize : Field .invocationRequest
  | functionName : Field .invocationRequest
  | requestId : Field .invocationRequest
  | returnCode : Field .invocationResult
  | resultId : Field .invocationResult
  | invocations : Field .dataplaneMetrics
  | computationTime : Field .dataplaneMetrics
  | lastInvocationTimestamp : Field .dataplaneMetrics
  | updateProcessId : Field .applicationUpdate
  | ipAddress : Field .applicationUpdate
  | statusChange : Field .applicationUpdate
  | port : Field .applicationUpdate
  | putName : Field .putMessage
  | putProcessId : Field .putMessage
deriving DecidableEq

namespace Field

variable {t : MessageType}

def kind : Field t → Kind
  | totalLength | swapSize | returnCode | statusChange | port => .int32
  | payloadSize | invocations | computationTime => .size
  | lastInvocationTimestamp => .uint64
  | processName | functionName | updateProcessId | putName | putProcessId => .text NAME_LENGTH 0
  | requestId | resultId | ipAddress => .text ID_LENGTH 0
  | path => .text ID_LENGTH (NAME_LENGTH - ID_LENGTH)

def off : Field t → ℕ
  | totalLength => 2
  | processName | path | swapSize | payloadSize | returnCode | invocations | updateProcessId
  | putName => HEADER_OFFSET
  | functionName | resultId | computationTime => HEADER_OFFSET + 4
  | lastInvocationTimestamp => HEADER_OFFSET + 8
  | ipAddress | putProcessId => HEADER_OFFSET + NAME_LENGTH
  | requestId => HEADER_OFFSET + NAME_LENGTH + 4
  | statusChange => HEADER_OFFSET + NAME_LENGTH + ID_LENGTH
  | port => HEADER_OFFSET + NAME_LENGTH + ID_LENGTH + 4

/-- The getter of a parsed header. -/
def get : (f : Field t) → MessagePtr → f.kind.Value
  | totalLength, m => Message.totalLength m
  | processName, m => ProcessConnection.processName m
  | path, m => SwapRequest.path m
  | swapSize, m => SwapConfirmation.swapSize m
  | payloadSize, m => InvocationRequest.payloadSize m
  | functionName, m => InvocationRequest.functionName m
  | requestId, m => InvocationRequest.invocationId m
  | returnCode, m => InvocationResult.returnCode m
  | resultId, m => InvocationResult.invocationId m
  | invocations, m => DataplaneMetrics.invocations m
  | computationTime, m => DataplaneMetrics.computationTime m
  | lastInvocationTimestamp, m => DataplaneMetrics.lastInvocationTimestamp m
  | updateProcessId, m => ApplicationUpdate.processId m
  | ipAddress, m => ApplicationUpdate.ipAddress m
  | statusChange, m => ApplicationUpdate.statusChange m
  | port, m => ApplicationUpdate.port m
  | putName, m => PutMessage.name m
  | putProcessId, m => PutMessage.processId m

/-- The setter. -/
def set : (f : Field t) → f.kind.Arg → MessageData → Except Fault MessageData
  | totalLength, len, m => .ok (m.setTotalLength len)
  | processName, name, m => ProcessConnection.setProcessName m name
  | path, location, m => SwapRequest.setPath m location
  | swapSize, size, m => .ok (SwapConfirmation.setSwapSize m size)
  | payloadSize, size, m => InvocationRequest.setPayloadSize m size
  | functionName, name, m => InvocationRequest.setFunctionName m name
  | requestId, name, m => InvocationRequest.setInvocationId m name
  | returnCode, code, m => .ok (InvocationResult.setReturnCode m code)
  | resultId, name, m => InvocationResult.setInvocationId m name
  | invocations, number, m => DataplaneMetrics.setInvocations m number
  | computationTime, time, m => DataplaneMetrics.setComputationTime m time
  | lastInvocationTimestamp, timestamp, m =>
    .ok (DataplaneMetrics.setLastInvocationTimestamp m timestamp)
  | updateProcessId, id, m => ApplicationUpdate.setProcessId m id
  | ipAddress, ipAddr, m => ApplicationUpdate.setIpAddress m ipAddr
  | statusChange, status, m => .ok (ApplicationUpdate.setStatusChange m status)
  | port, number, m => .ok (ApplicationUpdate.setPort m number)
  | putName, name, m => PutMessage.setName m name
  | putProcessId, name, m => PutMessage.setProcessId m name

end Field

/-- Where the fields of a type are. -/
def format (t : MessageType) : Format (Field t) where
  size := BUF_SIZE
  kind := Field.kind
  off := Field.off
  inside f := by cases t <;> cases f <;> decide
  apart f g hne := by cases f <;> cases g <;> first | exact absurd rfl hne | decide

/-! ## The objects that are set -/

/-- A message type over a `MessageData`, with the lengths it keeps of its strings. -/
structure Object (t : MessageType) where
  data : MessageData
  len : Field t → ℕ

namespace Object

variable {t : MessageType}

/-- The constructor finds no string in a zeroed header. -/
def new (t : MessageType) : Object t where
  data := MessageData.new t
  len := fun _ => 0

def step (o : Object t) (c : (format t).Call) : Except Fault (Object t) := do
  let data ← Field.set c.field c.arg o.data
  return { data := data, len := Function.update o.len c.field (c.field.kind.length c.arg) }

/-- The getter of the object itself. -/
def get (o : Object t) (f : Field t) : f.kind.Value :=
  f.kind.own (o.data.buf.drop f.off) (o.len f)

end Object

/-- The alternative of `MessageVariants` for a type. -/
def MessageType.variant : MessageType → MessagePtr → MessageVariants
  | .genericHeader, _ => .monostate
  | .processConnection, m => .processConnection m
  | .swapRequest, m => .swapRequest m
  | .swapConfirmation, m => .swapConfirmation m
  | .invocationRequest, m => .invocationRequest m
  | .invocationResult, m => .invocationResult m
  | .dataplaneMetrics, m => .dataplaneMetrics m
  | .processClosure, m => .processClosure m
  | .applicationUpdate, m => .applicationUpdate m
  | .putMessage, m => .putMessage m

section Getters

variable {t : MessageType}

theorem parse_of_type (ht : t ≠ .genericHeader) {m : MessagePtr} (h : m.take 2 = leBytes 2 t.code) :
    MessageParser.parse m = .ok (t.variant m) := by
  have htype : readInt16 m 0 = t.code := by
    unfold readInt16
    rw [List.drop_zero, h]
    cases t <;> rfl
  unfold MessageParser.parse
  rw [htype]
  cases t <;> first | exact absurd rfl ht | rfl

/-- The getters read what the format says. -/
theorem Field.get_eq (f : Field t) (m : MessagePtr) :
    f.get m = f.kind.decode ((format t).ranges.load m f) := by
  cases f <;> rfl

theorem setStr_ok {what : String} {off limit : ℕ} {v : StringView} (hv : v.length ≤ limit)
    (m : MessageData) (h : off + limit ≤ BUF_SIZE) :
    ∃ m', m.setStr what off limit h v = .ok m' ∧
      m'.buf = splice m.buf off (strncpy v.data limit) := by
  unfold MessageData.setStr
  rw [if_neg (not_lt.2 hv)]
  exact ⟨_, rfl, rfl⟩

/-- The setters store what the format says, where it says. -/
theorem Field.set_ok {f : Field t} {a : f.kind.Arg} (ha : f.kind.Accepts a) (m : MessageData) :
    ∃ m', f.set a m = .ok m' ∧ m'.buf = (format t).ranges.store m.buf f (f.kind.bytes a) := by
  cases f with
  | totalLength | swapSize | returnCode | statusChange | port | lastInvocationTimestamp =>
    exact ⟨_, rfl, rfl⟩
  | payloadSize => exact ⟨_, if_neg (not_lt.2 ha.1), rfl⟩
  | invocations => exact ⟨_, if_neg (not_lt.2 ha.1), rfl⟩
  | computationTime => exact ⟨_, if_neg (not_lt.2 ha.1), rfl⟩
  | _ => exact setStr_ok ha.1 m (by decide)

theorem object_stores (t : MessageType) :
    Format.Stores (F := format t) Object.step (fun o => o.data.buf) Object.len := by
  intro o c hc
  rcases Field.set_ok hc o.data with ⟨m', hm', hbuf⟩
  refine ⟨⟨m', _⟩, ?_, hbuf, rfl⟩
  unfold Object.step
  rw [hm']
  rfl

/-- The type stands before all fields. -/
theorem Field.two_le_off (f : Field t) : 2 ≤ f.off := by
  cases t <;> cases f <;> decide

theorem keeps_new (t : MessageType) :
    Format.Keeps (F := format t) (Object.new t).data.buf (Object.new t).len
      (fun f => f.kind.zero) :=
  Format.keeps_new (length_leBytes 2 t.code) (Object.new t).data.length_buf Field.two_le_off

theorem run_set {o o' : Object t} {calls : List (format t).Call}
    (h : Lts.run Object.step o calls = .ok o') :
    calls.foldlM (fun m c => Field.set c.field c.arg m) o.data = .ok o'.data := by
  induction calls generalizing o with
  | nil =>
    obtain rfl := Except.ok.inj h
    rfl
  | cons c calls ih =>
    rcases Lts.run_cons_ok.1 h with ⟨o₁, hstep, hrest⟩
    rcases Lts.bind_ok hstep with ⟨data, hset, ho₁⟩
    obtain rfl := Except.ok.inj ho₁
    rw [List.foldlM_cons, hset]
    exact ih hrest

/-- What the setters leave in a fresh header, and what a receiver reads. -/
theorem set_new (ht : t ≠ .genericHeader) {calls : List (format t).Call}
    (hcalls : ∀ c ∈ calls, c.Accepted) :
    ∃ m, calls.foldlM (fun m c => Field.set c.field c.arg m) (MessageData.new t) = .ok m ∧
      MessageParser.parse m.buf = .ok (t.variant m.buf) ∧
      ∀ f : Field t, f.get m.buf = Format.contents calls f := by
  rcases (object_stores t).run_keeps Field.two_le_off (keeps_new t) hcalls with
    ⟨o, hrun, hkeeps, hfront⟩
  refine ⟨o.data, run_set hrun, parse_of_type ht (hfront.trans ?_), ?_⟩
  · exact List.take_left' (length_leBytes 2 t.code)
  · intro f
    rw [Field.get_eq]
    exact hkeeps.decode_load f

end Getters

/-! ## The round trip -/

/-- After any run of setters the header parses as its type, and each getter, of the parsed
header and of the object, returns what was set last. -/
theorem wire_round_trip (t : MessageType) (ht : t ≠ .genericHeader) (calls : List (format t).Call)
    (hcalls : ∀ c ∈ calls, c.Accepted) :
    Format.Separate (F := format t) 2 Object.step (fun o => o.data.buf) ∧
      ∃ o, Lts.run Object.step (Object.new t) calls = .ok o ∧
        MessageParser.parse o.data.buf = .ok (t.variant o.data.buf) ∧
        (∀ f : Field t, f.get o.data.buf = Format.contents calls f) ∧
        ∀ f : Field t, o.get f = Format.contents calls f := by
  have hstores := object_stores t
  refine ⟨hstores.separate Field.two_le_off fun o => o.data.length_buf, ?_⟩
  rcases hstores.run_keeps Field.two_le_off (keeps_new t) hcalls with ⟨o, hrun, hkeeps, htype⟩
  refine ⟨o, hrun, parse_of_type ht (htype.trans ?_), fun f => ?_, fun f => hkeeps.own_drop f⟩
  · exact List.take_left' (length_leBytes 2 t.code)
  · rw [Field.get_eq]
    exact hkeeps.decode_load f

/-- A name is replaced by a shorter one, and an identifier without a terminator ends with the
buffer. -/
def sampleCalls : List (format .putMessage).Call :=
  [⟨.putName, ⟨List.replicate 32 97, 32⟩⟩, ⟨.putProcessId, ⟨List.replicate 40 98, 32⟩⟩,
    ⟨.putName, .ofStr (str ['c'])⟩]

theorem wire_round_trip_sample :
    ∃ o, Lts.run Object.step (Object.new .putMessage) sampleCalls = .ok o ∧
      MessageParser.parse o.data.buf = .ok (.putMessage o.data.buf) ∧
      PutMessage.name o.data.buf = str ['c'] ∧
      PutMessage.processId o.data.buf = List.replicate 32 98 := by
  rcases (wire_round_trip .putMessage (by decide) sampleCalls (by decide)).2 with
    ⟨o, hrun, hparse, hget, -⟩
  exact ⟨o, hrun, hparse, hget .putName, hget .putProcessId⟩

end Praas.Message
