import Praas.Process.Workers
import Praas.Process.RemotePeer

/-! # The client of a process

`praas::sdk::Process`: a program connects to the TCP server of a process and invokes functions.
Every call writes one message and blocks until the answer has been read.

* `connectHeader_ok`, `invokeHeader_ok`: what the server reads in the messages of the calls.
* `confirmed_registration`, `received_result`: what the client makes of the answers that the
  server writes.
-/

namespace Praas.Sdk

open Message
open Header (Format Kind)
open Process (Buffer)
open Process.Ipc (Text)
open Process.Remote (WellFormed CORRECT lengthField)

/-- `sdk::InvocationResult`. -/
structure InvocationResult where
  returnCode : Int
  payload : Buffer := []
  errorMessage : Str := []
deriving DecidableEq, Repr

/-- The arguments of `invoke`: strings without a NUL that fit. -/
structure Call where
  functionName : Text Process.Ipc.NAME_LENGTH
  invocationId : Text Process.Ipc.ID_LENGTH
  payload : Buffer
deriving DecidableEq

/-- The name that a client registers with; the server knows the data plane by another one. -/
def NAME : Str := str ['D', 'A', 'T', 'A', 'P', 'L', 'A', 'N', 'E']

/-! ## What is written -/

def connectHeader : Except Fault MessageData :=
  ProcessConnection.setProcessName (.new .processConnection) (.ofStr NAME)

/-- The total length stays zero. -/
def invokeHeader (c : Call) : Except Fault MessageData := do
  let msg ← InvocationRequest.setFunctionName (.new .invocationRequest) (.ofStr c.functionName.1)
  let msg ← InvocationRequest.setInvocationId msg (.ofStr c.invocationId.1)
  InvocationRequest.setPayloadSize msg (toInt32 c.payload.length)

/-! ## What is read -/

/-- `read_n`: without the bytes the call blocks. -/
def readN (n : ℕ) (stream : List Byte) : Option (List Byte × List Byte) :=
  if stream.length < n then none else some (stream.take n, stream.drop n)

/-- The end of `connect`. -/
def confirmed (response : List Byte) : Except Fault Bool :=
  match MessageParser.parse response with
  | .error e => .error e
  | .ok (.processConnection m) => .ok (decide (ProcessConnection.processName m = CORRECT))
  | .ok _ => .ok false

/-- The payload of a failed invocation is its error message. -/
def toResult (returnCode : Int) (payload : Buffer) : InvocationResult :=
  if returnCode < 0 then { returnCode := -returnCode, errorMessage := payload }
  else { returnCode := returnCode, payload := payload }

/-- The end of `invoke`, from the response on. -/
def received (response stream : List Byte) :
    Except Fault (Option (InvocationResult × List Byte)) :=
  match MessageParser.parse response with
  | .error e => .error e
  | .ok (.invocationResult m) =>
    .ok ((readN (sizeT (totalLength m)) stream).map fun r =>
      (toResult (Message.InvocationResult.returnCode m) r.1, r.2))
  | .ok _ => .ok (some ({ returnCode := 1 }, stream))

/-- A call of the client, and what it returns. -/
inductive Op where
  | connect
  | invoke (c : Call)
deriving DecidableEq

inductive Outcome where
  | connected (status : Bool)
  | result (r : InvocationResult)
deriving DecidableEq

namespace Op

def message : Op → Except Fault (List Byte)
  | .connect => connectHeader.map MessageData.buf
  | .invoke c => (invokeHeader c).map fun msg => msg.buf ++ c.payload

/-- What a call makes of the stream; it blocks as long as there is too little. -/
def read (op : Op) (stream : List Byte) : Except Fault (Option (Outcome × List Byte)) :=
  match readN BUF_SIZE stream with
  | none => .ok none
  | some (response, stream) =>
    match op with
    | .connect => (confirmed response).map fun status => some (.connected status, stream)
    | .invoke _ => (received response stream).map fun r => r.map fun r => (.result r.1, r.2)

end Op

/-! ## What the server reads -/

theorem connectHeader_ok :
    ∃ m, connectHeader = .ok m ∧ MessageParser.parse m.buf = .ok (.processConnection m.buf) ∧
      ProcessConnection.processName m.buf = NAME :=
  Process.Remote.registration_read (by decide)

/-- A request: a message whose payload is what is written behind it. -/
theorem invokeHeader_ok (c : Call) (hsmall : c.payload.length < 2 ^ 31) :
    ∃ m, invokeHeader c = .ok m ∧ MessageParser.parse m.buf = .ok (.invocationRequest m.buf) ∧
      InvocationRequest.functionName m.buf = c.functionName.1 ∧
      InvocationRequest.invocationId m.buf = c.invocationId.1 ∧ WellFormed m.buf c.payload := by
  let calls : List (format .invocationRequest).Call :=
    [⟨.functionName, StringView.ofStr c.functionName.1⟩,
      ⟨.requestId, StringView.ofStr c.invocationId.1⟩,
      ⟨.payloadSize, toInt32 c.payload.length⟩]
  have hlength : toInt32 c.payload.length = c.payload.length := toInt32_of_lt hsmall
  have haccepted : ∀ call ∈ calls, call.Accepted := by
    intro call hcall
    simp only [calls, List.mem_cons, List.not_mem_nil, or_false] at hcall
    rcases hcall with rfl | rfl | rfl
    · exact Kind.accepts_ofStr c.functionName.2.1 c.functionName.2.2
    · exact Kind.accepts_ofStr c.invocationId.2.1 c.invocationId.2.2
    · show 0 ≤ toInt32 c.payload.length ∧ toInt32 c.payload.length < 2 ^ 31
      omega
  rcases set_new (by decide) haccepted with ⟨m, hm, hparse, hget⟩
  have hsize : InvocationRequest.payloadSize m.buf = c.payload.length :=
    (hget .payloadSize).trans hlength
  refine ⟨m, ?_, hparse, (hget .functionName).trans (Kind.chars_ofStr _),
    (hget .requestId).trans (Kind.chars_ofStr _), ?_⟩
  · simp only [calls, List.foldlM_cons, List.foldlM_nil, bind_pure] at hm
    exact hm
  · unfold WellFormed lengthField
    rw [hparse]
    exact congrArg some hsize

/-! ## What the client reads -/

theorem readN_append {n : ℕ} {bs : List Byte} (h : bs.length = n) (rest : List Byte) :
    readN n (bs ++ rest) = some (bs, rest) := by
  unfold readN
  rw [if_neg (by simp [h]), List.take_left' h, List.drop_left' h]

/-- The answer to a registration. -/
theorem confirmed_registration :
    ∃ m, ProcessConnection.setProcessName (.new .processConnection) (.ofStr CORRECT) = .ok m ∧
      confirmed m.buf = .ok true := by
  let calls : List (format .processConnection).Call := [⟨.processName, StringView.ofStr CORRECT⟩]
  have haccepted : ∀ call ∈ calls, call.Accepted := by decide
  rcases set_new (by decide) haccepted with ⟨m, hm, hparse, hget⟩
  refine ⟨m, hm, ?_⟩
  unfold confirmed
  rw [hparse]
  exact congrArg Except.ok (decide_eq_true (hget .processName))

/-- The answer to a request, with whatever id. -/
theorem received_result (id : Text Process.Ipc.ID_LENGTH) {code : Int} {payload : Buffer}
    (hcode : -2 ^ 31 ≤ code ∧ code < 2 ^ 31) (hsmall : payload.length < 2 ^ 31) :
    ∃ m, Process.Remote.TCPServer.resultHeader (.ofStr id.1) code payload = .ok m ∧
      ∀ rest, received m.buf (payload ++ rest) = .ok (some (toResult code payload, rest)) := by
  rcases Process.Remote.resultHeader_read id.2 hcode hsmall with
    ⟨m, hm, hparse, -, hreturn, htotal⟩
  refine ⟨m, hm, ?_⟩
  intro rest
  have hread : readN (sizeT (totalLength m.buf)) (payload ++ rest) = some (payload, rest) := by
    have hsize := sizeT_of_nonneg (x := totalLength m.buf) (by omega) (by omega)
    exact readN_append (by omega) rest
  unfold received
  rw [hparse]
  show Except.ok ((readN (sizeT (totalLength m.buf)) (payload ++ rest)).map _) = _
  rw [hread, hreturn]
  rfl

theorem read_blocked (op : Op) : op.read [] = .ok none := by
  have hnone : readN BUF_SIZE [] = none := rfl
  unfold Op.read
  rw [hnone]

end Praas.Sdk
