import Praas.Process.Queues
import Praas.Runtime.Arguments

/-! # The headers of the messages between the controller and its workers

The functions of a worker name what they ask for in headers that `Context` and `Invoker`
build; the controller parses them, and builds the headers of what it sends in return.
* `Request.header` — what a call on a worker sends, setter by setter;
* `request_parsed` — the controller takes it for the request that it is;
* `header` — what the controller sends, setter by setter;
* `carries_header` — a worker takes it for the message that it is;
* `handle_made` — every message of a handler can be built.
-/

namespace Praas.Platform

open Header (Format Kind)
open Process (WorkerMessage Controller Output Env Buffer)
open Process.Ipc (Text NAME_LENGTH ID_LENGTH)
open Process.IpcHeader (Message MessageType Field Object HEADER_OFFSET format parseMessage
  parse_of_type)
open Process.Queues (WorkerMessage.body)
open Runtime.Arguments (Names)

/-- A fresh header, and its setters one after the other. -/
def build (t : MessageType) (calls : List (format t).Call) : Except Fault Message :=
  (Lts.run Object.step (Object.new t) calls).map Object.message

section Build

variable {t : MessageType}

theorem build_ok {calls : List (format t).Call} (hcalls : ∀ c ∈ calls, c.Accepted) :
    ∃ m, build t calls = .ok m ∧ m.data.take 2 = leBytes 2 t.code ∧
      ∀ f : Field t, f.get m = Format.contents calls f := by
  rcases Process.IpcHeader.run_new hcalls with ⟨o, hrun, htype, hget⟩
  refine ⟨o.message, ?_, htype, hget⟩
  unfold build
  rw [hrun]
  rfl

/-! The channel writes the total length between the type and the fields. -/

theorem take_setTotalLength (m : Message) (total : Int) :
    (m.sent.setTotalLength total).data.take 2 = m.data.take 2 := by
  have hlength : (m.data.take 2).length = 2 := by
    rw [List.length_take, m.length_data]
    rfl
  show (m.data.take 2 ++ int32Bytes total ++ _).take 2 = _
  rw [List.append_assoc, List.take_left' hlength]

theorem drop_setTotalLength (m : Message) (total : Int) :
    (m.sent.setTotalLength total).data.drop HEADER_OFFSET = m.data.drop HEADER_OFFSET := by
  have hlength : (m.data.take 2 ++ int32Bytes total).length = HEADER_OFFSET := by
    rw [List.length_append, List.length_take, m.length_data, length_int32Bytes]
    rfl
  show (m.data.take 2 ++ int32Bytes total ++ m.data.drop HEADER_OFFSET).drop HEADER_OFFSET = _
  exact List.drop_left' hlength

theorem parse_sent {m : Message} {v : Process.IpcHeader.MessageVariants}
    (hv : t.variant (m.data.drop HEADER_OFFSET) = some v)
    (htype : m.data.take 2 = leBytes 2 t.code) (total : Int) :
    parseMessage (m.sent.setTotalLength total).data = .ok v := by
  let sent : Message := ⟨(m.sent.setTotalLength total).data, (m.sent.setTotalLength total).length_data⟩
  have hvariant : t.variant (sent.data.drop HEADER_OFFSET) = some v :=
    (congrArg t.variant (drop_setTotalLength m total)).trans hv
  exact parse_of_type hvariant ((take_setTotalLength m total).trans htype)

end Build

/-- A string that fits, as the argument of a setter. -/
def view {n : ℕ} (s : Text n) : StringView := .ofStr s.1

theorem accepts_view {n : ℕ} (s : Text n) : (Kind.text n 0).Accepts (view s) :=
  Kind.accepts_ofStr s.2.1 s.2.2

/-! ## What a worker sends -/

/-- The calls on a `Context` that send a message, and `Invoker::finish`. -/
inductive Request where
  | put (destination name : Text NAME_LENGTH) (data : Buffer)
  | putState (name : Text NAME_LENGTH) (data : Buffer)
  | get (source name : Text NAME_LENGTH)
  | getState (name : Text NAME_LENGTH)
  | stateKeys
  | invoke (processId : Text ID_LENGTH) (functionName : Text NAME_LENGTH)
      (invocationId : Text ID_LENGTH) (input : Buffer)
  | finish (invocationId : Text ID_LENGTH) (output : Buffer) (returnCode : Int32)
deriving DecidableEq

namespace Request

/-- The header of the message; `buffers(int32_t)` writes a table of one length. -/
def header : Request → Except Fault Message
  | .put destination name data =>
    build .putRequest [⟨.putProcessId, view destination⟩, ⟨.putName, view name⟩,
      ⟨.putDataLen, toInt32 data.length⟩]
  | .putState name data =>
    build .putRequest [⟨.putName, view name⟩, ⟨.putDataLen, toInt32 data.length⟩,
      ⟨.putState, true⟩]
  | .get source name => build .getRequest [⟨.getProcessId, view source⟩, ⟨.getName, view name⟩]
  | .getState name => build .getRequest [⟨.getName, view name⟩, ⟨.getState, true⟩]
  | .stateKeys => build .stateKeysRequest []
  | .invoke processId functionName invocationId input => do
    let m ← build .invocationRequest [⟨.requestProcessId, view processId⟩,
      ⟨.functionName, view functionName⟩, ⟨.requestId, view invocationId⟩]
    Process.IpcHeader.InvocationRequest.setBuffers m [toInt32 input.length]
  | .finish invocationId output returnCode =>
    build .invocationResult [⟨.returnCode, returnCode.toInt⟩,
      ⟨.resultBufferLength, toInt32 output.length⟩, ⟨.resultId, view invocationId⟩]

/-- What goes with the header. -/
def payload : Request → Buffer
  | .put _ _ data => data
  | .putState _ data => data
  | .get _ _ => []
  | .getState _ => []
  | .stateKeys => []
  | .invoke _ _ _ input => input
  | .finish _ output _ => output

/-- What it says to the controller. -/
def message : Request → Process.Ipc.MessageVariants
  | .put destination name _ => .putRequest ⟨destination, name, false⟩
  | .putState name _ => .putRequest ⟨default, name, true⟩
  | .get source name => .getRequest ⟨source, name, false⟩
  | .getState name => .getRequest ⟨default, name, true⟩
  | .stateKeys => .stateKeysRequest
  | .invoke processId functionName invocationId _ =>
    .invocationRequest ⟨processId, invocationId, functionName⟩
  | .finish invocationId _ returnCode => .invocationResult ⟨invocationId, returnCode.toInt⟩

end Request

section Parsing

open Process.IpcHeader.GenericRequestParsed (state)
open Process.IpcHeader.InvocationResultParsed (returnCode)

/-- The getters that `_process_internal_message` calls on a parsed header; what only the
controller sends is not supported. -/
def parsed : Process.IpcHeader.MessageVariants → Option Process.Ipc.MessageVariants
  | .getRequest buf =>
    some (.getRequest ⟨.read buf 4 NAME_LENGTH, .read buf (NAME_LENGTH + 4) NAME_LENGTH,
      state buf⟩)
  | .putRequest buf =>
    some (.putRequest ⟨.read buf 4 NAME_LENGTH, .read buf (NAME_LENGTH + 4) NAME_LENGTH,
      state buf⟩)
  | .invocationRequest buf =>
    some (.invocationRequest ⟨.read buf (ID_LENGTH + NAME_LENGTH) ID_LENGTH,
      .read buf 0 ID_LENGTH, .read buf ID_LENGTH NAME_LENGTH⟩)
  | .invocationResult buf =>
    some (.invocationResult ⟨.read buf 0 ID_LENGTH, returnCode buf⟩)
  | .stateKeysRequest _ => some .stateKeysRequest
  | .applicationUpdate _ => none
  | .stateKeysResult _ => none

/-- The getter of a text finds what its field says. -/
theorem read_eq {n off : ℕ} {buf : List Byte} {s : Text n} (h : cstr buf off n = s.1) :
    Text.read buf off n = s :=
  Subtype.ext h

/-- The header that arrives is taken for the request. -/
def Says (header : List Byte) (r : Request) : Prop :=
  ∃ v, parseMessage header = .ok v ∧ parsed v = some r.message

end Parsing

section Requests

variable {m : Message}

theorem parsed_putRequest {processId name : Text NAME_LENGTH} {state : Bool}
    (hid : Field.get .putProcessId m = processId.1) (hname : Field.get .putName m = name.1)
    (hstate : Field.get .putState m = state) :
    parsed (.putRequest (m.data.drop HEADER_OFFSET)) = some (.putRequest ⟨processId, name, state⟩) := by
  have hid' : Text.read (m.data.drop HEADER_OFFSET) 4 NAME_LENGTH = processId := read_eq hid
  have hname' : Text.read (m.data.drop HEADER_OFFSET) (NAME_LENGTH + 4) NAME_LENGTH = name :=
    read_eq hname
  simp only [parsed, hid', hname', ← hstate]
  rfl

theorem parsed_getRequest {processId name : Text NAME_LENGTH} {state : Bool}
    (hid : Field.get .getProcessId m = processId.1) (hname : Field.get .getName m = name.1)
    (hstate : Field.get .getState m = state) :
    parsed (.getRequest (m.data.drop HEADER_OFFSET)) = some (.getRequest ⟨processId, name, state⟩) := by
  have hid' : Text.read (m.data.drop HEADER_OFFSET) 4 NAME_LENGTH = processId := read_eq hid
  have hname' : Text.read (m.data.drop HEADER_OFFSET) (NAME_LENGTH + 4) NAME_LENGTH = name :=
    read_eq hname
  simp only [parsed, hid', hname', ← hstate]
  rfl

theorem parsed_invocationRequest {processId invocationId : Text ID_LENGTH}
    {functionName : Text NAME_LENGTH} (hprocess : Field.get .requestProcessId m = processId.1)
    (hid : Field.get .requestId m = invocationId.1)
    (hname : Field.get .functionName m = functionName.1) :
    parsed (.invocationRequest (m.data.drop HEADER_OFFSET)) =
      some (.invocationRequest ⟨processId, invocationId, functionName⟩) := by
  have hprocess' : Text.read (m.data.drop HEADER_OFFSET) (ID_LENGTH + NAME_LENGTH) ID_LENGTH =
      processId := read_eq hprocess
  have hid' : Text.read (m.data.drop HEADER_OFFSET) 0 ID_LENGTH = invocationId := read_eq hid
  have hname' : Text.read (m.data.drop HEADER_OFFSET) ID_LENGTH NAME_LENGTH = functionName :=
    read_eq hname
  simp only [parsed, hprocess', hid', hname']

theorem parsed_invocationResult {invocationId : Text ID_LENGTH} {code : Int}
    (hid : Field.get .resultId m = invocationId.1) (hcode : Field.get .returnCode m = code) :
    parsed (.invocationResult (m.data.drop HEADER_OFFSET)) =
      some (.invocationResult ⟨invocationId, code⟩) := by
  have hid' : Text.read (m.data.drop HEADER_OFFSET) 0 ID_LENGTH = invocationId := read_eq hid
  simp only [parsed, hid', ← hcode]
  rfl

/-- The controller reads every request as it was made. -/
theorem request_parsed (r : Request) :
    ∃ m, r.header = .ok m ∧ ∀ total, Says (m.sent.setTotalLength total).data r := by
  cases r with
  | put destination name data =>
    have haccepted : ∀ c ∈ ([⟨.putProcessId, view destination⟩, ⟨.putName, view name⟩,
        ⟨.putDataLen, toInt32 data.length⟩] : List (format .putRequest).Call), c.Accepted := by
      simp only [List.forall_mem_cons, List.not_mem_nil, false_implies, implies_true, and_true]
      exact ⟨accepts_view destination, accepts_view name, toInt32_ge _, toInt32_lt _⟩
    rcases build_ok haccepted with ⟨m, hm, htype, hget⟩
    refine ⟨m, hm, fun total => ⟨_, parse_sent rfl htype total, ?_⟩⟩
    exact parsed_putRequest ((hget .putProcessId).trans (Kind.chars_ofStr destination.1))
      ((hget .putName).trans (Kind.chars_ofStr name.1)) (hget .putState)
  | putState name data =>
    have haccepted : ∀ c ∈ ([⟨.putName, view name⟩, ⟨.putDataLen, toInt32 data.length⟩,
        ⟨.putState, true⟩] : List (format .putRequest).Call), c.Accepted := by
      simp only [List.forall_mem_cons, List.not_mem_nil, false_implies, implies_true, and_true]
      exact ⟨accepts_view name, ⟨toInt32_ge _, toInt32_lt _⟩, trivial⟩
    rcases build_ok haccepted with ⟨m, hm, htype, hget⟩
    refine ⟨m, hm, fun total => ⟨_, parse_sent rfl htype total, ?_⟩⟩
    exact parsed_putRequest (hget .putProcessId)
      ((hget .putName).trans (Kind.chars_ofStr name.1)) (hget .putState)
  | get source name =>
    have haccepted : ∀ c ∈ ([⟨.getProcessId, view source⟩, ⟨.getName, view name⟩] :
        List (format .getRequest).Call), c.Accepted := by
      simp only [List.forall_mem_cons, List.not_mem_nil, false_implies, implies_true, and_true]
      exact ⟨accepts_view source, accepts_view name⟩
    rcases build_ok haccepted with ⟨m, hm, htype, hget⟩
    refine ⟨m, hm, fun total => ⟨_, parse_sent rfl htype total, ?_⟩⟩
    exact parsed_getRequest ((hget .getProcessId).trans (Kind.chars_ofStr source.1))
      ((hget .getName).trans (Kind.chars_ofStr name.1)) (hget .getState)
  | getState name =>
    have haccepted : ∀ c ∈ ([⟨.getName, view name⟩, ⟨.getState, true⟩] :
        List (format .getRequest).Call), c.Accepted := by
      simp only [List.forall_mem_cons, List.not_mem_nil, false_implies, implies_true, and_true]
      exact ⟨accepts_view name, trivial⟩
    rcases build_ok haccepted with ⟨m, hm, htype, hget⟩
    refine ⟨m, hm, fun total => ⟨_, parse_sent rfl htype total, ?_⟩⟩
    exact parsed_getRequest (hget .getProcessId)
      ((hget .getName).trans (Kind.chars_ofStr name.1)) (hget .getState)
  | stateKeys =>
    have haccepted : ∀ c ∈ ([] : List (format .stateKeysRequest).Call), c.Accepted := by simp
    rcases build_ok haccepted with ⟨m, hm, htype, -⟩
    exact ⟨m, hm, fun total => ⟨_, parse_sent rfl htype total, rfl⟩⟩
  | invoke processId functionName invocationId input =>
    have haccepted : ∀ c ∈ ([⟨.requestProcessId, view processId⟩,
        ⟨.functionName, view functionName⟩, ⟨.requestId, view invocationId⟩] :
        List (format .invocationRequest).Call), c.Accepted := by
      simp only [List.forall_mem_cons, List.not_mem_nil, false_implies, implies_true, and_true]
      exact ⟨accepts_view processId, accepts_view functionName, accepts_view invocationId⟩
    rcases build_ok haccepted with ⟨m₀, hm₀, htype, hget⟩
    have hroom : [toInt32 input.length].length ≤ Process.IpcHeader.ROOM :=
      (by decide : 1 ≤ Process.IpcHeader.ROOM)
    rcases Process.IpcHeader.setBuffers_ok m₀ hroom with ⟨m, hm, hdata⟩
    have htable := Process.IpcHeader.table_of_data hdata hroom (by
      intro x hx
      obtain rfl := List.mem_singleton.1 hx
      exact ⟨toInt32_ge _, toInt32_lt _⟩)
    refine ⟨m, ?_, fun total => ⟨_, parse_sent rfl (htable.type.trans htype) total, ?_⟩⟩
    · simp only [Request.header, hm₀]
      exact hm
    -- the table lies behind the strings
    · refine parsed_invocationRequest ?_ ?_ ?_
      · rw [htable.fields]
        exact (hget .requestProcessId).trans (Kind.chars_ofStr processId.1)
      · rw [htable.fields]
        exact (hget .requestId).trans (Kind.chars_ofStr invocationId.1)
      · rw [htable.fields]
        exact (hget .functionName).trans (Kind.chars_ofStr functionName.1)
  | finish invocationId output returnCode =>
    have haccepted : ∀ c ∈ ([⟨.returnCode, returnCode.toInt⟩,
        ⟨.resultBufferLength, toInt32 output.length⟩, ⟨.resultId, view invocationId⟩] :
        List (format .invocationResult).Call), c.Accepted := by
      simp only [List.forall_mem_cons, List.not_mem_nil, false_implies, implies_true, and_true]
      exact ⟨⟨returnCode.le_toInt, returnCode.toInt_lt⟩, ⟨toInt32_ge _, toInt32_lt _⟩,
        accepts_view invocationId⟩
    rcases build_ok haccepted with ⟨m, hm, htype, hget⟩
    refine ⟨m, hm, fun total => ⟨_, parse_sent rfl htype total, ?_⟩⟩
    exact parsed_invocationResult ((hget .resultId).trans (Kind.chars_ofStr invocationId.1))
      (hget .returnCode)

end Requests

/-! ## What the controller sends -/

variable (serialize : List (Str × ℕ) → Buffer)

/-- The headers that the handlers and `Workers::submit` build. The names of a GET for a state
value and of one for a message are set by different branches; `Invocation` builds its own. -/
def WorkerMessage.header : WorkerMessage → Except Fault Message
  | .getRequest m _ =>
    if m.state then build .getRequest [⟨.getName, view m.name⟩, ⟨.getState, true⟩]
    else build .getRequest [⟨.getProcessId, view m.processId⟩, ⟨.getName, view m.name⟩]
  | .invocationRequest m data =>
    Runtime.Arguments.header ⟨m, data, .direct, true, Process.InvocationSource.fromLocal⟩
  | .invocationResult m _ =>
    build .invocationResult [⟨.resultId, view m.invocationId⟩, ⟨.returnCode, m.returnCode⟩,
      ⟨.resultBufferLength, m.bufferLength⟩]
  | .applicationUpdate m =>
    build .applicationUpdate [⟨.statusChange, m.statusChange⟩, ⟨.updateProcessId, view m.processId⟩]
  | .stateKeysResult keys =>
    build .stateKeysResult [⟨.keysBufferLength, toInt32 (serialize keys).length⟩]

section Carrying

open Process.IpcHeader.GenericRequestParsed (processId name state)
open Process.IpcHeader.InvocationResultParsed (invocationId returnCode bufferLength)
open Process.IpcHeader.ApplicationUpdateParsed (statusChange)

/-- A worker that reads the header and the payload reads the message. -/
def Carries (header payload : List Byte) : WorkerMessage → Prop
  | .getRequest m data => ∃ buf, parseMessage header = .ok (.getRequest buf) ∧
      processId buf = m.processId.1 ∧ name buf = m.name.1 ∧ state buf = m.state ∧
      payload = data.getD []
  | .invocationRequest m data =>
    Names header m.invocationId m.functionName (data.map List.length) ∧ payload = data.flatten
  | .invocationResult m data => ∃ buf, parseMessage header = .ok (.invocationResult buf) ∧
      invocationId buf = m.invocationId.1 ∧ returnCode buf = m.returnCode ∧
      bufferLength buf = m.bufferLength ∧ payload = data
  | .applicationUpdate m => ∃ buf, parseMessage header = .ok (.applicationUpdate buf) ∧
      statusChange buf = m.statusChange ∧
      Process.IpcHeader.ApplicationUpdateParsed.processId buf = m.processId.1 ∧ payload = []
  | .stateKeysResult keys => ∃ buf, parseMessage header = .ok (.stateKeysResult buf) ∧
      payload = serialize keys

end Carrying

/-- An `int32_t`. -/
def IsInt32 (x : Int) : Prop := -2 ^ 31 ≤ x ∧ x < 2 ^ 31

instance (x : Int) : Decidable (IsInt32 x) := inferInstanceAs (Decidable (_ ∧ _))

/-- What a handler makes: a state value has no process, and lengths stand for the payload. -/
def Made : WorkerMessage → Prop
  | .getRequest m _ => m.state = true → m.processId = default
  | .invocationRequest m data =>
    m.buffers = (data.map List.length).map toInt32 ∧
      data.length ≤ Process.Ipc.InvocationRequest.TABLE_LENGTH
  | .invocationResult m data =>
    IsInt32 m.returnCode ∧ m.bufferLength = toInt32 data.length
  | .applicationUpdate m => IsInt32 m.statusChange
  | .stateKeysResult _ => True

section Replies

variable {serialize}

/-- Every message that a handler makes is built, and read as it was made. -/
theorem carries_header {m : WorkerMessage} (hmade : Made m)
    (hsmall : (WorkerMessage.body serialize m).payload.length < 2 ^ 31) :
    ∃ h, WorkerMessage.header serialize m = .ok h ∧ ∀ total,
      Carries serialize (h.sent.setTotalLength total).data
        (WorkerMessage.body serialize m).payload m := by
  cases m with
  | getRequest m data =>
    have hpayload : (WorkerMessage.body serialize (.getRequest m data)).payload = data.getD [] := by
      cases data with
      | none => rfl
      | some data => rfl
    rw [hpayload]
    unfold WorkerMessage.header
    by_cases hstate : m.state = true
    · have haccepted : ∀ c ∈ ([⟨.getName, view m.name⟩, ⟨.getState, true⟩] :
          List (format .getRequest).Call), c.Accepted := by
        simp only [List.forall_mem_cons, List.not_mem_nil, false_implies, implies_true, and_true]
        exact ⟨accepts_view m.name, trivial⟩
      rcases build_ok haccepted with ⟨h, hh, htype, hget⟩
      simp only [hstate, if_true]
      refine ⟨h, hh, fun total => ⟨_, parse_sent rfl htype total, ?_, ?_, ?_, rfl⟩⟩
      · rw [hmade hstate]
        exact hget .getProcessId
      · exact (hget .getName).trans (Kind.chars_ofStr m.name.1)
      · rw [hstate]
        exact hget .getState
    · have haccepted : ∀ c ∈ ([⟨.getProcessId, view m.processId⟩, ⟨.getName, view m.name⟩] :
          List (format .getRequest).Call), c.Accepted := by
        simp only [List.forall_mem_cons, List.not_mem_nil, false_implies, implies_true, and_true]
        exact ⟨accepts_view m.processId, accepts_view m.name⟩
      rcases build_ok haccepted with ⟨h, hh, htype, hget⟩
      simp only [hstate, Bool.false_eq_true, if_false]
      refine ⟨h, hh, fun total => ⟨_, parse_sent rfl htype total, ?_, ?_, ?_, rfl⟩⟩
      · exact (hget .getProcessId).trans (Kind.chars_ofStr m.processId.1)
      · exact (hget .getName).trans (Kind.chars_ofStr m.name.1)
      · rw [Bool.not_eq_true] at hstate
        rw [hstate]
        exact hget .getState
  | invocationRequest m data =>
    have hroom : (data.map List.length).length ≤ Process.IpcHeader.ROOM := by
      rw [List.length_map]
      exact hmade.2
    have hlens : ∀ n ∈ data.map List.length, n < 2 ^ 31 := by
      intro n hn
      rcases List.mem_map.1 hn with ⟨buf, hbuf, rfl⟩
      have hle : buf.length ≤ data.flatten.length := by
        rw [List.length_flatten]
        exact List.single_le_sum (by simp) _ (List.mem_map_of_mem hbuf)
      exact hle.trans_lt hsmall
    rcases Runtime.Arguments.header_ok
      (i := ⟨m, data, .direct, true, Process.InvocationSource.fromLocal⟩) hmade.1 hroom hlens with
      ⟨h, hh, hnames⟩
    exact ⟨h, hh, fun total => ⟨hnames.sent total, rfl⟩⟩
  | invocationResult m data =>
    have haccepted : ∀ c ∈ ([⟨.resultId, view m.invocationId⟩, ⟨.returnCode, m.returnCode⟩,
        ⟨.resultBufferLength, m.bufferLength⟩] : List (format .invocationResult).Call),
        c.Accepted := by
      simp only [List.forall_mem_cons, List.not_mem_nil, false_implies, implies_true, and_true]
      refine ⟨accepts_view m.invocationId, hmade.1, ?_⟩
      rw [hmade.2]
      exact ⟨toInt32_ge _, toInt32_lt _⟩
    rcases build_ok haccepted with ⟨h, hh, htype, hget⟩
    refine ⟨h, hh, fun total => ⟨_, parse_sent rfl htype total, ?_, ?_, ?_, rfl⟩⟩
    · exact (hget .resultId).trans (Kind.chars_ofStr m.invocationId.1)
    · exact hget .returnCode
    · exact hget .resultBufferLength
  | applicationUpdate m =>
    have haccepted : ∀ c ∈ ([⟨.statusChange, m.statusChange⟩, ⟨.updateProcessId, view m.processId⟩] :
        List (format .applicationUpdate).Call), c.Accepted := by
      simp only [List.forall_mem_cons, List.not_mem_nil, false_implies, implies_true, and_true]
      exact ⟨hmade, accepts_view m.processId⟩
    rcases build_ok haccepted with ⟨h, hh, htype, hget⟩
    refine ⟨h, hh, fun total => ⟨_, parse_sent rfl htype total, ?_, ?_, rfl⟩⟩
    · exact hget .statusChange
    · exact (hget .updateProcessId).trans (Kind.chars_ofStr m.processId.1)
  | stateKeysResult keys =>
    have haccepted : ∀ c ∈ ([⟨.keysBufferLength, toInt32 (serialize keys).length⟩] :
        List (format .stateKeysResult).Call), c.Accepted := by
      simp only [List.forall_mem_cons, List.not_mem_nil, false_implies, implies_true, and_true]
      exact ⟨toInt32_ge _, toInt32_lt _⟩
    rcases build_ok haccepted with ⟨h, hh, htype, -⟩
    exact ⟨h, hh, fun total => ⟨_, parse_sent rfl htype total, rfl⟩⟩

end Replies

/-! ## What the handlers make -/

/-- The numbers of an input are those of its messages. -/
def InRange : Controller.Input → Prop
  | .internal _ (.invocationResult req) _ _ => IsInt32 req.returnCode
  | .updates us => ∀ u ∈ us, IsInt32 u.status
  | _ => True

def AllMade (outs : List Output) : Prop := ∀ w m, .toWorker w m ∈ outs → Made m

section Handlers

variable {c : Controller} {r : Controller × List Output}

theorem allMade_nil : AllMade [] := by
  intro w m h
  cases h

theorem allMade_server (call : Process.ServerCall) : AllMade [.server call] := by
  intro w m h
  cases List.mem_singleton.1 h

theorem allMade_toWorker {w : ℕ} {m : WorkerMessage} (h : Made m) : AllMade [.toWorker w m] := by
  intro w' m' hm
  cases List.mem_singleton.1 hm
  exact h

theorem made_wake {id : Str} {code : Int} {payload : Buffer} (hcode : IsInt32 code)
    (h : c.wake id code payload = .ok r) : AllMade r.2 := by
  unfold Controller.wake at h
  rcases Lts.bind_ok h with ⟨result, -, h⟩
  obtain rfl := Except.ok.inj h
  intro w m hm
  rcases List.mem_map.1 hm with ⟨v, -, hv⟩
  cases hv
  exact ⟨hcode, rfl⟩

theorem made_processInvocationResult {source : Process.InvocationSource} {id : Str} {code : Int}
    {payload : Buffer} (hcode : IsInt32 code)
    (h : c.processInvocationResult source id code payload = .ok r) : AllMade r.2 := by
  unfold Controller.processInvocationResult at h
  by_cases hremote : source.isRemote = true
  · rw [if_pos hremote] at h
    obtain rfl := Except.ok.inj h
    exact allMade_server _
  · rw [if_neg hremote] at h
    exact made_wake hcode h

theorem made_processWorkerResult {w : ℕ} {id : Str} {code : Int} {payload : Buffer}
    (hcode : IsInt32 code) (h : c.processWorkerResult w id code payload = .ok r) : AllMade r.2 := by
  simp only [Controller.processWorkerResult] at h
  cases hfound : (c.workQueue.finish id).1 with
  | none =>
    rw [hfound] at h
    obtain rfl := Except.ok.inj h
    exact allMade_nil
  | some i =>
    rw [hfound] at h
    rcases Lts.bind_ok h with ⟨q, hq, h⟩
    obtain rfl := Except.ok.inj h
    have hq' : AllMade q.2 := made_processInvocationResult hcode hq
    exact hq'

theorem made_submitPayload {fname id : Str} {payload : Buffer} {source : Process.InvocationSource}
    (h : c.submitPayload fname id payload source = .ok r) : AllMade r.2 := by
  unfold Controller.submitPayload at h
  rcases Lts.bind_ok h with ⟨⟨q, rejected⟩, -, h⟩
  cases rejected with
  | none =>
    obtain rfl := Except.ok.inj h
    exact allMade_nil
  | some message => exact made_processInvocationResult (by decide) h

theorem made_deliver {name source : Str} {payload : Buffer}
    (h : c.deliver name source payload = .ok r) : AllMade r.2 := by
  simp only [Controller.deliver] at h
  cases hfound : (c.pendingMsgs.findGet name source).1 with
  | none =>
    rw [hfound] at h
    obtain rfl := Except.ok.inj h
    exact allMade_nil
  | some w =>
    rw [hfound] at h
    rcases Lts.bind_ok h with ⟨req, hreq, h⟩
    rcases Lts.bind_ok h with ⟨req', hreq', h⟩
    obtain rfl := Except.ok.inj h
    refine allMade_toWorker fun hstate => ?_
    -- neither setter touches the state
    rcases Lts.bind_ok hreq with ⟨s, -, hs⟩
    rcases Lts.bind_ok hreq' with ⟨s', -, hs'⟩
    obtain rfl := Except.ok.inj hs
    obtain rfl := Except.ok.inj hs'
    cases hstate

theorem made_processPut {req : Process.Ipc.GenericRequestParsed} {payload : Buffer} {env : Env}
    (h : c.processPut req payload env = .ok r) : AllMade r.2 := by
  unfold Controller.processPut at h
  by_cases hstate : req.state = true
  · rw [if_pos hstate] at h
    rcases Lts.bind_ok h with ⟨q, -, h⟩
    obtain rfl := Except.ok.inj h
    exact allMade_nil
  · rw [if_neg hstate] at h
    by_cases hself : c.IsSelf req.processId.1
    · rw [if_pos hself] at h
      exact made_deliver h
    · rw [if_neg hself] at h
      obtain rfl := Except.ok.inj h
      exact allMade_server _

theorem made_processGet {w : ℕ} {req : Process.Ipc.GenericRequestParsed} {env : Env}
    (h : c.processGet w req env = .ok r) : AllMade r.2 := by
  simp only [Controller.processGet] at h
  by_cases hstate : req.state = true
  · rw [if_pos hstate] at h
    rcases Lts.bind_ok h with ⟨reply, hreply, h⟩
    rcases Lts.bind_ok hreply with ⟨name, -, hname⟩
    obtain rfl := Except.ok.inj hname
    obtain rfl := Except.ok.inj h
    exact allMade_toWorker fun _ => rfl
  · rw [if_neg hstate] at h
    cases hfound : (c.mailbox.tryGet req.name.1 (c.resolve req.processId.1)).2 with
    | none =>
      rw [hfound] at h
      obtain rfl := Except.ok.inj h
      exact allMade_nil
    | some payload =>
      rw [hfound] at h
      rcases Lts.bind_ok h with ⟨reply, hreply, h⟩
      rcases Lts.bind_ok h with ⟨reply', hreply', h⟩
      rcases Lts.bind_ok hreply with ⟨s, -, hs⟩
      rcases Lts.bind_ok hreply' with ⟨s', -, hs'⟩
      obtain rfl := Except.ok.inj hs
      obtain rfl := Except.ok.inj hs'
      obtain rfl := Except.ok.inj h
      exact allMade_toWorker fun hfalse => by cases hfalse

theorem made_processInternalMessage {w : ℕ} {msg : Process.Ipc.MessageVariants}
    {payload : Buffer} {env : Env} (hrange : InRange (.internal w msg payload env))
    (h : c.processInternalMessage w msg payload env = .ok r) : AllMade r.2 := by
  cases msg with
  | invocationResult req => exact made_processWorkerResult hrange h
  | invocationRequest req =>
    simp only [Controller.processInternalMessage, Controller.processInvocation] at h
    split at h
    · exact made_submitPayload h
    · obtain rfl := Except.ok.inj h
      exact allMade_server _
  | putRequest req => exact made_processPut h
  | getRequest req => exact made_processGet h
  | stateKeysRequest =>
    obtain rfl := Except.ok.inj h
    exact allMade_toWorker trivial

theorem made_processExternalMessage {m : Process.ExternalMessage}
    (h : c.processExternalMessage m = .ok r) : AllMade r.2 := by
  unfold Controller.processExternalMessage at h
  rcases Lts.bind_ok h with ⟨v, -, h⟩
  cases v with
  | invocationRequest req => exact made_submitPayload h
  | invocationResult req => exact made_wake ⟨readInt32_ge _ _, readInt32_lt _ _⟩ h
  | putMessage req => exact made_deliver h
  | _ =>
    obtain rfl := Except.ok.inj h
    exact allMade_nil

theorem status_of_updateMessage {us : List Common.ApplicationUpdate}
    {msgs : List Process.Ipc.ApplicationUpdate}
    (h : us.mapM Controller.updateMessage = .ok msgs) (hrange : ∀ u ∈ us, IsInt32 u.status) :
    ∀ msg ∈ msgs, IsInt32 msg.statusChange := by
  induction us generalizing msgs with
  | nil =>
    obtain rfl := Except.ok.inj h
    intro msg hmsg
    cases hmsg
  | cons u us ih =>
    rw [List.mapM_cons] at h
    rcases Lts.bind_ok h with ⟨first, hfirst, h⟩
    rcases Lts.bind_ok h with ⟨rest, hrest, h⟩
    obtain rfl := Except.ok.inj h
    rcases Lts.bind_ok hfirst with ⟨named, -, hnamed⟩
    obtain rfl := Except.ok.inj hnamed
    intro msg hmsg
    rcases List.mem_cons.1 hmsg with rfl | hmem
    · exact hrange u List.mem_cons_self
    · exact ih hrest (fun u' hu' => hrange u' (List.mem_cons_of_mem _ hu')) msg hmem

theorem made_processApplicationUpdates {us : List Common.ApplicationUpdate}
    (hrange : ∀ u ∈ us, IsInt32 u.status) (h : c.processApplicationUpdates us = .ok r) :
    AllMade r.2 := by
  unfold Controller.processApplicationUpdates at h
  rcases Lts.bind_ok h with ⟨msgs, hmsgs, h⟩
  obtain rfl := Except.ok.inj h
  intro w m hm
  rcases List.mem_flatMap.1 hm with ⟨msg, hmsg, hm⟩
  rcases List.mem_map.1 hm with ⟨v, -, hv⟩
  cases hv
  exact status_of_updateMessage hmsgs hrange msg hmsg

theorem made_schedule (h : c.schedule = .ok r) : AllMade r.2 := by
  unfold Controller.schedule at h
  by_cases hidle : c.workers.hasIdleWorkers = true
  · rw [if_pos hidle] at h
    rcases hnext : c.workQueue.next with ⟨found, q⟩
    rw [hnext] at h
    cases found with
    | none =>
      obtain rfl := Except.ok.inj h
      exact allMade_nil
    | some key =>
      cases hi : q.activeInvocations key with
      | none =>
        simp only [hi] at h
        cases h
      | some i =>
        simp only [hi] at h
        rcases Lts.bind_ok h with ⟨⟨ws, i', w⟩, hsubmit, h⟩
        obtain rfl := Except.ok.inj h
        rcases Process.Workers.submit_fits hsubmit with ⟨hlen, rfl⟩
        exact allMade_toWorker ⟨rfl, hlen⟩
  · rw [if_neg hidle] at h
    obtain rfl := Except.ok.inj h
    exact allMade_nil

/-- Every message of a handler to a worker is one that can be built. -/
theorem handle_made {i : Controller.Input} (hrange : InRange i) (h : c.handle i = .ok r) :
    AllMade r.2 := by
  cases i with
  | external m => exact made_processExternalMessage h
  | internal w msg payload env => exact made_processInternalMessage hrange h
  | updates us => exact made_processApplicationUpdates hrange h
  | schedule => exact made_schedule h

end Handlers

end Praas.Platform
