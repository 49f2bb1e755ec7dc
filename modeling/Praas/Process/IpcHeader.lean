import Praas.Common.Fields
import Praas.Process.Ipc

/-! # The 128-byte headers on the queues to the workers

`praas::process::runtime::internal::ipc`, byte by byte: the setters compute their offsets
from the start of the buffer, the getters of a parsed header from a pointer behind its type
and total length. The table of buffers of an invocation request is not part of this.
-/

namespace Praas.Process.IpcHeader

open Header (Kind Format)
open Ipc (NAME_LENGTH ID_LENGTH)

/-! ## Messages -/

def BUF_SIZE : ℕ := 128
def HEADER_OFFSET : ℕ := 6

/-- `Message::Type`. -/
inductive MessageType where
  | genericHeader | getRequest | putRequest | invocationRequest | invocationResult
  | applicationUpdate | stateKeysRequest | stateKeysResult
deriving DecidableEq, Repr

def MessageType.code : MessageType → ℕ
  | .genericHeader => 0
  | .getRequest => 1
  | .putRequest => 2
  | .invocationRequest => 3
  | .invocationResult => 4
  | .applicationUpdate => 5
  | .stateKeysRequest => 6
  | .stateKeysResult => 7

structure Message where
  data : List Byte
  length_data : data.length = BUF_SIZE

namespace Message

def new (t : MessageType) : Message :=
  ⟨leBytes 2 t.code ++ List.replicate (BUF_SIZE - 2) 0, by simp [BUF_SIZE]⟩

def write (m : Message) (off : ℕ) (new : List Byte) (h : off + new.length ≤ BUF_SIZE) : Message :=
  ⟨splice m.data off new, by
    rw [length_splice (by rw [m.length_data]; exact h), m.length_data]⟩

/-- The string setters. -/
def setStr (m : Message) (what : String) (off limit : ℕ) (h : off + limit ≤ BUF_SIZE)
    (v : StringView) : Except Fault Message :=
  if limit < v.length then .error (.invalidArgument what v.length limit)
  else .ok (m.write off (strncpy v.data limit) (by simpa using h))

/-- The `int32_t` setters. -/
def setInt32 (m : Message) (off : ℕ) (h : off + 4 ≤ BUF_SIZE) (x : Int) : Message :=
  m.write off (int32Bytes x) (by simpa using h)

def totalLength (m : Message) : Int := readInt32 m.data 2

def setTotalLength (m : Message) (len : Int) : Message := m.setInt32 2 (by decide) len

end Message

/-! ## Setters -/

namespace GenericRequest

def setDataLen (m : Message) (len : Int) : Message := m.setInt32 HEADER_OFFSET (by decide) len

def setState (m : Message) (val : Bool) : Message :=
  m.write (HEADER_OFFSET + NAME_LENGTH * 2 + 4) [if val then 1 else 0]
    (Nat.le_of_ble_eq_true rfl)

def setProcessId (m : Message) (processId : StringView) : Except Fault Message :=
  m.setStr "Process name too long" (HEADER_OFFSET + 4) NAME_LENGTH (by decide) processId

def setName (m : Message) (name : StringView) : Except Fault Message :=
  m.setStr "Process name too long" (HEADER_OFFSET + 4 + NAME_LENGTH) NAME_LENGTH (by decide) name

end GenericRequest

namespace InvocationRequest

def setProcessId (m : Message) (id : StringView) : Except Fault Message :=
  m.setStr "Process ID too long" (HEADER_OFFSET + ID_LENGTH + NAME_LENGTH) ID_LENGTH (by decide) id

def setInvocationId (m : Message) (id : StringView) : Except Fault Message :=
  m.setStr "Invocation ID too long" HEADER_OFFSET ID_LENGTH (by decide) id

def setFunctionName (m : Message) (name : StringView) : Except Fault Message :=
  m.setStr "Function name too long" (HEADER_OFFSET + ID_LENGTH) NAME_LENGTH (by decide) name

end InvocationRequest

namespace InvocationResult

def setInvocationId (m : Message) (id : StringView) : Except Fault Message :=
  m.setStr "Invocation ID too long" HEADER_OFFSET ID_LENGTH (by decide) id

def setReturnCode (m : Message) (code : Int) : Message :=
  m.setInt32 (HEADER_OFFSET + ID_LENGTH + 4) (by decide) code

def setBufferLength (m : Message) (len : Int) : Message :=
  m.setInt32 (HEADER_OFFSET + ID_LENGTH) (by decide) len

end InvocationResult

namespace StateKeysResult

def setBufferLength (m : Message) (len : Int) : Message :=
  m.setInt32 HEADER_OFFSET (by decide) len

end StateKeysResult

namespace ApplicationUpdate

def setProcessId (m : Message) (id : StringView) : Except Fault Message :=
  m.setStr "Process ID too long" HEADER_OFFSET NAME_LENGTH (by decide) id

def setStatusChange (m : Message) (code : Int) : Message :=
  m.setInt32 (HEADER_OFFSET + NAME_LENGTH) (by decide) code

end ApplicationUpdate

/-! ## Parsed headers, over the bytes behind the offset -/

namespace GenericRequestParsed

def dataLen (buf : List Byte) : Int := readInt32 buf 0

def state (buf : List Byte) : Bool := (buf.drop (NAME_LENGTH * 2 + 4)).headD 0 ≠ 0

def processId (buf : List Byte) : Str := cstr buf 4 NAME_LENGTH

def name (buf : List Byte) : Str := cstr buf (NAME_LENGTH + 4) NAME_LENGTH

end GenericRequestParsed

namespace InvocationRequestParsed

def processId (buf : List Byte) : Str := cstr buf (ID_LENGTH + NAME_LENGTH) ID_LENGTH

def invocationId (buf : List Byte) : Str := cstr buf 0 ID_LENGTH

def functionName (buf : List Byte) : Str := cstr buf ID_LENGTH NAME_LENGTH

end InvocationRequestParsed

namespace InvocationResultParsed

def invocationId (buf : List Byte) : Str := cstr buf 0 ID_LENGTH

def bufferLength (buf : List Byte) : Int := readInt32 buf ID_LENGTH

def returnCode (buf : List Byte) : Int := readInt32 buf (ID_LENGTH + 4)

end InvocationResultParsed

namespace StateKeysResultParsed

def bufferLength (buf : List Byte) : Int := readInt32 buf 0

end StateKeysResultParsed

namespace ApplicationUpdateParsed

def statusChange (buf : List Byte) : Int := readInt32 buf NAME_LENGTH

def processId (buf : List Byte) : Str := cstr buf 0 NAME_LENGTH

end ApplicationUpdateParsed

/-- `Message::MessageVariants`. -/
inductive MessageVariants where
  | getRequest (buf : List Byte)
  | putRequest (buf : List Byte)
  | invocationRequest (buf : List Byte)
  | invocationResult (buf : List Byte)
  | applicationUpdate (buf : List Byte)
  | stateKeysResult (buf : List Byte)
  | stateKeysRequest (buf : List Byte)
deriving DecidableEq, Repr

/-- `Message::parse_message`; the generic header is no message. -/
def parseMessage (data : List Byte) : Except Fault MessageVariants :=
  match readInt16 data 0 with
  | 0 => .error (.unknownMessage 0)
  | 1 => .ok (.getRequest (data.drop HEADER_OFFSET))
  | 2 => .ok (.putRequest (data.drop HEADER_OFFSET))
  | 3 => .ok (.invocationRequest (data.drop HEADER_OFFSET))
  | 4 => .ok (.invocationResult (data.drop HEADER_OFFSET))
  | 5 => .ok (.applicationUpdate (data.drop HEADER_OFFSET))
  | 6 => .ok (.stateKeysRequest (data.drop HEADER_OFFSET))
  | 7 => .ok (.stateKeysResult (data.drop HEADER_OFFSET))
  | t => .error (.invalidMessage t)

def Message.parse (m : Message) : Except Fault MessageVariants := parseMessage m.data

/-! ## The fields of each type -/

inductive Field : MessageType → Type
  | totalLength {t : MessageType} : Field t
  | getDataLen : Field .getRequest
  | getProcessId : Field .getRequest
  | getName : Field .getRequest
  | getState : Field .getRequest
  | putDataLen : Field .putRequest
  | putProcessId : Field .putRequest
  | putName : Field .putRequest
  | putState : Field .putRequest
  | requestProcessId : Field .invocationRequest
  | requestId : Field .invocationRequest
  | functionName : Field .invocationRequest
  | resultId : Field .invocationResult
  | resultBufferLength : Field .invocationResult
  | returnCode : Field .invocationResult
  | updateProcessId : Field .applicationUpdate
  | statusChange : Field .applicationUpdate
  | keysBufferLength : Field .stateKeysResult
deriving DecidableEq

namespace Field

variable {t : MessageType}

def kind : Field t → Kind
  | totalLength | getDataLen | putDataLen | resultBufferLength | returnCode | statusChange
  | keysBufferLength => .int32
  | getState | putState => .flag
  | getProcessId | getName | putProcessId | putName | functionName | updateProcessId =>
    .text NAME_LENGTH 0
  | requestProcessId | requestId | resultId => .text ID_LENGTH 0

def off : Field t → ℕ
  | totalLength => 2
  | getDataLen | putDataLen | requestId | resultId | updateProcessId | keysBufferLength =>
    HEADER_OFFSET
  | getProcessId | putProcessId => HEADER_OFFSET + 4
  | getName | putName => HEADER_OFFSET + 4 + NAME_LENGTH
  | getState | putState => HEADER_OFFSET + NAME_LENGTH * 2 + 4
  | functionName | resultBufferLength => HEADER_OFFSET + ID_LENGTH
  | requestProcessId => HEADER_OFFSET + ID_LENGTH + NAME_LENGTH
  | returnCode => HEADER_OFFSET + ID_LENGTH + 4
  | statusChange => HEADER_OFFSET + NAME_LENGTH

/-- The getter of the parsed header; the total length is one of the message itself. -/
def get : (f : Field t) → Message → f.kind.Value
  | totalLength, m => m.totalLength
  | getDataLen, m => GenericRequestParsed.dataLen (m.data.drop HEADER_OFFSET)
  | getProcessId, m => GenericRequestParsed.processId (m.data.drop HEADER_OFFSET)
  | getName, m => GenericRequestParsed.name (m.data.drop HEADER_OFFSET)
  | getState, m => GenericRequestParsed.state (m.data.drop HEADER_OFFSET)
  | putDataLen, m => GenericRequestParsed.dataLen (m.data.drop HEADER_OFFSET)
  | putProcessId, m => GenericRequestParsed.processId (m.data.drop HEADER_OFFSET)
  | putName, m => GenericRequestParsed.name (m.data.drop HEADER_OFFSET)
  | putState, m => GenericRequestParsed.state (m.data.drop HEADER_OFFSET)
  | requestProcessId, m => InvocationRequestParsed.processId (m.data.drop HEADER_OFFSET)
  | requestId, m => InvocationRequestParsed.invocationId (m.data.drop HEADER_OFFSET)
  | functionName, m => InvocationRequestParsed.functionName (m.data.drop HEADER_OFFSET)
  | resultId, m => InvocationResultParsed.invocationId (m.data.drop HEADER_OFFSET)
  | resultBufferLength, m => InvocationResultParsed.bufferLength (m.data.drop HEADER_OFFSET)
  | returnCode, m => InvocationResultParsed.returnCode (m.data.drop HEADER_OFFSET)
  | updateProcessId, m => ApplicationUpdateParsed.processId (m.data.drop HEADER_OFFSET)
  | statusChange, m => ApplicationUpdateParsed.statusChange (m.data.drop HEADER_OFFSET)
  | keysBufferLength, m => StateKeysResultParsed.bufferLength (m.data.drop HEADER_OFFSET)

/-- The setter. -/
def set : (f : Field t) → f.kind.Arg → Message → Except Fault Message
  | totalLength, len, m => .ok (m.setTotalLength len)
  | getDataLen, len, m => .ok (GenericRequest.setDataLen m len)
  | getProcessId, id, m => GenericRequest.setProcessId m id
  | getName, name, m => GenericRequest.setName m name
  | getState, val, m => .ok (GenericRequest.setState m val)
  | putDataLen, len, m => .ok (GenericRequest.setDataLen m len)
  | putProcessId, id, m => GenericRequest.setProcessId m id
  | putName, name, m => GenericRequest.setName m name
  | putState, val, m => .ok (GenericRequest.setState m val)
  | requestProcessId, id, m => InvocationRequest.setProcessId m id
  | requestId, id, m => InvocationRequest.setInvocationId m id
  | functionName, name, m => InvocationRequest.setFunctionName m name
  | resultId, id, m => InvocationResult.setInvocationId m id
  | resultBufferLength, len, m => .ok (InvocationResult.setBufferLength m len)
  | returnCode, code, m => .ok (InvocationResult.setReturnCode m code)
  | updateProcessId, id, m => ApplicationUpdate.setProcessId m id
  | statusChange, code, m => .ok (ApplicationUpdate.setStatusChange m code)
  | keysBufferLength, len, m => .ok (StateKeysResult.setBufferLength m len)

end Field

def format (t : MessageType) : Format (Field t) where
  size := BUF_SIZE
  kind := Field.kind
  off := Field.off
  inside f := by cases t <;> cases f <;> decide
  apart f g hne := by cases f <;> cases g <;> first | exact absurd rfl hne | decide

/-! ## The objects that are set -/

/-- A message with the lengths it keeps of its strings. -/
structure Object (t : MessageType) where
  message : Message
  len : Field t → ℕ

namespace Object

variable {t : MessageType}

/-- The constructors find no string in a zeroed header, and no state. -/
def new (t : MessageType) : Object t where
  message := Message.new t
  len := fun _ => 0

def step (o : Object t) (c : (format t).Call) : Except Fault (Object t) := do
  let message ← Field.set c.field c.arg o.message
  return { message := message
           len := Function.update o.len c.field (c.field.kind.length c.arg) }

/-- The getter of the object itself. -/
def get (o : Object t) (f : Field t) : f.kind.Value :=
  f.kind.own (o.message.data.drop f.off) (o.len f)

end Object

/-- The alternative of `MessageVariants` for a type, over the bytes behind the offset. -/
def MessageType.variant : MessageType → List Byte → Option MessageVariants
  | .genericHeader, _ => none
  | .getRequest, buf => some (.getRequest buf)
  | .putRequest, buf => some (.putRequest buf)
  | .invocationRequest, buf => some (.invocationRequest buf)
  | .invocationResult, buf => some (.invocationResult buf)
  | .applicationUpdate, buf => some (.applicationUpdate buf)
  | .stateKeysRequest, buf => some (.stateKeysRequest buf)
  | .stateKeysResult, buf => some (.stateKeysResult buf)

section Getters

variable {t : MessageType}

theorem parse_of_type {v : MessageVariants} {m : Message}
    (hv : t.variant (m.data.drop HEADER_OFFSET) = some v) (h : m.data.take 2 = leBytes 2 t.code) :
    m.parse = .ok v := by
  have htype : readInt16 m.data 0 = t.code := by
    unfold readInt16
    rw [List.drop_zero, h]
    cases t <;> rfl
  unfold Message.parse parseMessage
  rw [htype]
  cases t with
  | genericHeader => cases hv
  | _ =>
    obtain rfl := Option.some.inj hv
    rfl

/-! A reader counts from behind the header, a writer from its start. -/

theorem cstr_drop (bs : List Byte) (start off n : ℕ) :
    cstr (bs.drop start) off n = cstr bs (start + off) n := by
  unfold cstr
  rw [List.drop_drop]

theorem readInt32_drop (bs : List Byte) (start off : ℕ) :
    readInt32 (bs.drop start) off = readInt32 bs (start + off) := by
  unfold readInt32
  rw [List.drop_drop]

theorem state_drop (bs : List Byte) (start : ℕ) :
    GenericRequestParsed.state (bs.drop start) =
      Kind.flag.decode ((bs.drop (start + (NAME_LENGTH * 2 + 4))).take 1) := by
  unfold GenericRequestParsed.state
  rw [List.drop_drop]
  cases bs.drop (start + (NAME_LENGTH * 2 + 4)) <;> rfl

/-- Reader and writer mean the same bytes. -/
theorem Field.get_eq (f : Field t) (m : Message) :
    f.get m = f.kind.decode ((format t).ranges.load m.data f) := by
  cases f with
  | totalLength => rfl
  | getState | putState => exact state_drop _ _
  | getDataLen | putDataLen | resultBufferLength | returnCode | statusChange
  | keysBufferLength => exact readInt32_drop _ _ _
  | _ => exact cstr_drop _ _ _ _

theorem setStr_ok {what : String} {off limit rest : ℕ} {v : StringView}
    (hv : (Kind.text limit rest).Accepts v) (m : Message) (h : off + limit ≤ BUF_SIZE) :
    ∃ m', m.setStr what off limit h v = .ok m' ∧
      m'.data = splice m.data off (strncpy v.data limit) := by
  unfold Message.setStr
  rw [if_neg (not_lt.2 hv.1)]
  exact ⟨_, rfl, rfl⟩

theorem Field.set_ok {f : Field t} {a : f.kind.Arg} (ha : f.kind.Accepts a) (m : Message) :
    ∃ m', f.set a m = .ok m' ∧ m'.data = (format t).ranges.store m.data f (f.kind.bytes a) := by
  cases f with
  | totalLength | getDataLen | putDataLen | getState | putState | resultBufferLength | returnCode
  | statusChange | keysBufferLength => exact ⟨_, rfl, rfl⟩
  | _ => exact setStr_ok ha m (by decide)

theorem object_stores (t : MessageType) :
    Format.Stores (F := format t) Object.step (fun o => o.message.data) Object.len := by
  intro o c hc
  rcases Field.set_ok hc o.message with ⟨m', hm', hdata⟩
  refine ⟨⟨m', _⟩, ?_, hdata, rfl⟩
  unfold Object.step
  rw [hm']
  rfl

/-- The type stands before all fields. -/
theorem Field.two_le_off (f : Field t) : 2 ≤ f.off := by
  cases t <;> cases f <;> decide

theorem keeps_new (t : MessageType) :
    Format.Keeps (F := format t) (Object.new t).message.data (Object.new t).len
      (fun f => f.kind.zero) :=
  Format.keeps_new (length_leBytes 2 t.code) (Object.new t).message.length_data Field.two_le_off

/-- The setters of a fresh header all return; its fields have what was set last. -/
theorem run_new {calls : List (format t).Call} (hcalls : ∀ c ∈ calls, c.Accepted) :
    ∃ o, Lts.run Object.step (Object.new t) calls = .ok o ∧
      o.message.data.take 2 = leBytes 2 t.code ∧
      ∀ f : Field t, f.get o.message = Format.contents calls f := by
  rcases (object_stores t).run_keeps Field.two_le_off (keeps_new t) hcalls with
    ⟨o, hrun, hkeeps, hfront⟩
  refine ⟨o, hrun, hfront.trans (List.take_left' (length_leBytes 2 t.code)), ?_⟩
  intro f
  rw [Field.get_eq]
  exact hkeeps.decode_load f

end Getters

/-! ## The round trip -/

/-- After any run of setters the header parses as its type, and each getter, of the parsed
header and of the object, returns what was set last. -/
theorem ipc_round_trip (t : MessageType) (ht : t ≠ .genericHeader) (calls : List (format t).Call)
    (hcalls : ∀ c ∈ calls, c.Accepted) :
    Format.Separate (F := format t) 2 Object.step (fun o => o.message.data) ∧
      ∃ o v, Lts.run Object.step (Object.new t) calls = .ok o ∧
        t.variant (o.message.data.drop HEADER_OFFSET) = some v ∧ o.message.parse = .ok v ∧
        (∀ f : Field t, f.get o.message = Format.contents calls f) ∧
        ∀ f : Field t, o.get f = Format.contents calls f := by
  have hstores := object_stores t
  refine ⟨hstores.separate Field.two_le_off fun o => o.message.length_data, ?_⟩
  rcases hstores.run_keeps Field.two_le_off (keeps_new t) hcalls with ⟨o, hrun, hkeeps, hfront⟩
  have htype : o.message.data.take 2 = leBytes 2 t.code :=
    hfront.trans (List.take_left' (length_leBytes 2 t.code))
  have hvariant : ∃ v, t.variant (o.message.data.drop HEADER_OFFSET) = some v := by
    cases t with
    | genericHeader => exact absurd rfl ht
    | _ => exact ⟨_, rfl⟩
  rcases hvariant with ⟨v, hv⟩
  refine ⟨o, v, hrun, hv, parse_of_type hv htype, fun f => ?_, fun f => hkeeps.own_drop f⟩
  rw [Field.get_eq]
  exact hkeeps.decode_load f

/-- A flag set twice, a name that fills its field, and a process set after a longer one. -/
def sampleCalls : List (format .getRequest).Call :=
  [⟨.getState, true⟩, ⟨.getProcessId, .ofStr (str ['p', 'q', 'r'])⟩,
    ⟨.getName, ⟨List.replicate 32 97, 32⟩⟩, ⟨.totalLength, (-1 : Int)⟩, ⟨.getState, false⟩,
    ⟨.getProcessId, .ofStr (str ['s'])⟩]

theorem ipc_round_trip_sample :
    ∃ o buf, Lts.run Object.step (Object.new .getRequest) sampleCalls = .ok o ∧
      o.message.parse = .ok (.getRequest buf) ∧ o.message.totalLength = -1 ∧
      GenericRequestParsed.processId buf = str ['s'] ∧
      GenericRequestParsed.name buf = List.replicate 32 97 ∧
      GenericRequestParsed.state buf = false := by
  rcases (ipc_round_trip .getRequest (by decide) sampleCalls (by decide)).2 with
    ⟨o, v, hrun, hv, hparse, hget, -⟩
  obtain rfl := Option.some.inj hv
  exact ⟨o, _, hrun, hparse, hget .totalLength, hget .getProcessId, hget .getName,
    hget .getState⟩

end Praas.Process.IpcHeader
