import Praas.Common.Bytes

/-! # The 70-byte headers between the processes and the control plane

`praas::common::message`: the fixed-size header of every message on a TCP
connection, the fields each message type keeps in it, and the parser that
dispatches on the type.
-/

namespace Praas.Message

/-! ## Layout -/

def BUF_SIZE : ℕ := 70
def HEADER_OFFSET : ℕ := 6
def NAME_LENGTH : ℕ := 32
def ID_LENGTH : ℕ := 16

theorem BUF_SIZE_pos : 0 < BUF_SIZE := by decide

inductive MessageType where
  | genericHeader | processConnection | swapRequest | swapConfirmation
  | invocationRequest | invocationResult | dataplaneMetrics | processClosure
  | applicationUpdate | putMessage
deriving DecidableEq, Repr

/-- The value of the type in the first two bytes. -/
def MessageType.code : MessageType → ℕ
  | .genericHeader => 0
  | .processConnection => 1
  | .swapRequest => 2
  | .swapConfirmation => 3
  | .invocationRequest => 4
  | .invocationResult => 5
  | .dataplaneMetrics => 6
  | .processClosure => 7
  | .applicationUpdate => 8
  | .putMessage => 9

/-- A `MessagePtr`: the bytes from the pointer on. -/
abbrev MessagePtr := List Byte

/-- A `MessageData`: a header of its own. -/
structure MessageData where
  buf : List Byte
  length_buf : buf.length = BUF_SIZE

/-- A zeroed header of the given type. -/
def MessageData.new (t : MessageType) : MessageData :=
  ⟨leBytes 2 t.code ++ List.replicate (BUF_SIZE - 2) 0, by simp [BUF_SIZE]⟩

theorem MessageData.take_new (t : MessageType) :
    (MessageData.new t).buf.take 2 = leBytes 2 t.code :=
  List.take_left' (length_leBytes 2 t.code)

/-- Write into the header; `h` keeps the write inside it. -/
def MessageData.write (m : MessageData) (off : ℕ) (new : List Byte)
    (h : off + new.length ≤ BUF_SIZE) : MessageData :=
  ⟨splice m.buf off new, by rw [length_splice (by rw [m.length_buf]; exact h), m.length_buf]⟩

/-- The string setters: a view longer than the field raises, any other fills the
field with `strncpy`. -/
def MessageData.setStr (m : MessageData) (what : String) (off limit : ℕ)
    (h : off + limit ≤ BUF_SIZE) (v : StringView) : Except Fault MessageData :=
  if limit < v.length then .error (.invalidArgument what v.length limit)
  else .ok (m.write off (strncpy v.data limit) (by simpa using h))

/-- The `int32_t` setters. -/
def MessageData.setInt32 (m : MessageData) (off : ℕ) (h : off + 4 ≤ BUF_SIZE) (x : Int) :
    MessageData :=
  m.write off (int32Bytes x) (by simpa using h)

/-! ## Fields of the message types -/

def totalLength (m : MessagePtr) : Int := readInt32 m 2

def MessageData.setTotalLength (m : MessageData) (len : Int) : MessageData :=
  m.setInt32 2 (by decide) len

namespace ProcessConnection

def processName (m : MessagePtr) : Str := cstr m HEADER_OFFSET NAME_LENGTH

def setProcessName (m : MessageData) (name : StringView) : Except Fault MessageData :=
  m.setStr "Process name too long" HEADER_OFFSET NAME_LENGTH (by decide) name

end ProcessConnection

namespace SwapRequest

/-- The reader looks at more bytes than the setter writes. -/
def path (m : MessagePtr) : Str := cstr m HEADER_OFFSET NAME_LENGTH

def setPath (m : MessageData) (path : StringView) : Except Fault MessageData :=
  m.setStr "Swap location ID too long" HEADER_OFFSET ID_LENGTH (by decide) path

end SwapRequest

namespace SwapConfirmation

def swapSize (m : MessagePtr) : Int := readInt32 m HEADER_OFFSET

def setSwapSize (m : MessageData) (size : Int) : MessageData :=
  m.setInt32 HEADER_OFFSET (by decide) size

end SwapConfirmation

namespace InvocationRequest

def payloadSize (m : MessagePtr) : Int := readInt32 m HEADER_OFFSET

def functionName (m : MessagePtr) : Str := cstr m (HEADER_OFFSET + 4) NAME_LENGTH

def invocationId (m : MessagePtr) : Str := cstr m (HEADER_OFFSET + NAME_LENGTH + 4) ID_LENGTH

def setInvocationId (m : MessageData) (name : StringView) : Except Fault MessageData :=
  m.setStr "Invocation ID too long" (HEADER_OFFSET + NAME_LENGTH + 4) ID_LENGTH (by decide) name

def setFunctionName (m : MessageData) (name : StringView) : Except Fault MessageData :=
  m.setStr "Function name too long" (HEADER_OFFSET + 4) NAME_LENGTH (by decide) name

def setPayloadSize (m : MessageData) (size : Int) : Except Fault MessageData :=
  if size < 0 then .error (.negativeSize "Payload size too small" size)
  else .ok (m.setInt32 HEADER_OFFSET (by decide) size)

end InvocationRequest

namespace InvocationResult

def returnCode (m : MessagePtr) : Int := readInt32 m HEADER_OFFSET

def invocationId (m : MessagePtr) : Str := cstr m (HEADER_OFFSET + 4) ID_LENGTH

def setInvocationId (m : MessageData) (name : StringView) : Except Fault MessageData :=
  m.setStr "Invocation ID too long" (HEADER_OFFSET + 4) ID_LENGTH (by decide) name

def setReturnCode (m : MessageData) (code : Int) : MessageData :=
  m.setInt32 HEADER_OFFSET (by decide) code

end InvocationResult

namespace DataplaneMetrics

def invocations (m : MessagePtr) : Int := readInt32 m HEADER_OFFSET

def computationTime (m : MessagePtr) : Int := readInt32 m (HEADER_OFFSET + 4)

def lastInvocationTimestamp (m : MessagePtr) : ℕ := leNat ((m.drop (HEADER_OFFSET + 8)).take 8)

def setInvocations (m : MessageData) (invocations : Int) : Except Fault MessageData :=
  if invocations < 0 then .error (.negativeSize "Incorrect number of invocations" invocations)
  else .ok (m.setInt32 HEADER_OFFSET (by decide) invocations)

def setComputationTime (m : MessageData) (time : Int) : Except Fault MessageData :=
  if time < 0 then .error (.negativeSize "Incorrect computation time" time)
  else .ok (m.setInt32 (HEADER_OFFSET + 4) (by decide) time)

def setLastInvocationTimestamp (m : MessageData) (timestamp : ℕ) : MessageData :=
  m.write (HEADER_OFFSET + 8) (leBytes 8 timestamp) (by simp [HEADER_OFFSET, BUF_SIZE])

end DataplaneMetrics

namespace ApplicationUpdate

def processId (m : MessagePtr) : Str := cstr m HEADER_OFFSET NAME_LENGTH

def ipAddress (m : MessagePtr) : Str := cstr m (HEADER_OFFSET + NAME_LENGTH) ID_LENGTH

def statusChange (m : MessagePtr) : Int := readInt32 m (HEADER_OFFSET + NAME_LENGTH + ID_LENGTH)

def port (m : MessagePtr) : Int := readInt32 m (HEADER_OFFSET + NAME_LENGTH + ID_LENGTH + 4)

def setProcessId (m : MessageData) (id : StringView) : Except Fault MessageData :=
  m.setStr "Process ID too long" HEADER_OFFSET NAME_LENGTH (by decide) id

def setIpAddress (m : MessageData) (ipAddr : StringView) : Except Fault MessageData :=
  m.setStr "Process ID too long" (HEADER_OFFSET + NAME_LENGTH) ID_LENGTH (by decide) ipAddr

def setStatusChange (m : MessageData) (status : Int) : MessageData :=
  m.setInt32 (HEADER_OFFSET + NAME_LENGTH + ID_LENGTH) (by decide) status

def setPort (m : MessageData) (port : Int) : MessageData :=
  m.setInt32 (HEADER_OFFSET + NAME_LENGTH + ID_LENGTH + 4) (by decide) port

end ApplicationUpdate

namespace PutMessage

def name (m : MessagePtr) : Str := cstr m HEADER_OFFSET NAME_LENGTH

def processId (m : MessagePtr) : Str := cstr m (HEADER_OFFSET + NAME_LENGTH) NAME_LENGTH

def setName (m : MessageData) (name : StringView) : Except Fault MessageData :=
  m.setStr "Message name too long" HEADER_OFFSET NAME_LENGTH (by decide) name

def setProcessId (m : MessageData) (name : StringView) : Except Fault MessageData :=
  m.setStr "Invocation ID too long" (HEADER_OFFSET + NAME_LENGTH) NAME_LENGTH (by decide) name

end PutMessage

/-! ## The parser -/

/-- `MessageVariants`: the parsed view of a header, over the same bytes. -/
inductive MessageVariants where
  | monostate
  | processConnection (m : MessagePtr)
  | swapRequest (m : MessagePtr)
  | swapConfirmation (m : MessagePtr)
  | invocationRequest (m : MessagePtr)
  | invocationResult (m : MessagePtr)
  | dataplaneMetrics (m : MessagePtr)
  | processClosure (m : MessagePtr)
  | applicationUpdate (m : MessagePtr)
  | putMessage (m : MessagePtr)
deriving DecidableEq, Repr

/-- `MessageParser::parse`. -/
def MessageParser.parse (m : MessagePtr) : Except Fault MessageVariants :=
  match readInt16 m 0 with
  | 0 => .error .notImplemented
  | 1 => .ok (.processConnection m)
  | 2 => .ok (.swapRequest m)
  | 3 => .ok (.swapConfirmation m)
  | 4 => .ok (.invocationRequest m)
  | 5 => .ok (.invocationResult m)
  | 6 => .ok (.dataplaneMetrics m)
  | 7 => .ok (.processClosure m)
  | 8 => .ok (.applicationUpdate m)
  | 9 => .ok (.putMessage m)
  | t => .error (.invalidMessage t)

end Praas.Message
