import Mathlib.Data.List.TakeWhile
import Praas.Common.Bytes

/-! # The messages between the controller and its workers

`praas::process::runtime::internal::ipc`: the fields of the messages on the
queues to and from the function workers. The messages that arrive are the parsed
ones, whose strings fit the fields they were read from; the messages that are
sent are built with setters that refuse what does not fit.
-/

namespace Praas.Process.Ipc

def NAME_LENGTH : ℕ := 32
def ID_LENGTH : ℕ := 16

/-- A string in a field of `n` bytes: it ends at the first NUL. -/
abbrev Text (n : ℕ) := { s : Str // s.length ≤ n ∧ (0 : Byte) ∉ s }

instance (n : ℕ) : Inhabited (Text n) := ⟨⟨[], by simp⟩⟩

theorem zero_not_mem_takeWhile (s : Str) : (0 : Byte) ∉ s.takeWhile (· ≠ 0) := by
  intro h
  simpa using List.mem_takeWhile_imp h

/-- What `strnlen` makes of a field. -/
def Text.read (bs : List Byte) (off n : ℕ) : Text n :=
  ⟨cstr bs off n, length_cstr_le bs off n, zero_not_mem_takeWhile _⟩

/-- What `strncpy` makes of a string that fits. -/
def Text.ofStr (n : ℕ) (s : Str) (h : s.length ≤ n) : Text n :=
  ⟨s.takeWhile (· ≠ 0), ((List.takeWhile_prefix _).length_le).trans h,
    zero_not_mem_takeWhile s⟩

theorem Text.ofStr_text {n : ℕ} (s : Text n) (h : s.1.length ≤ n) : Text.ofStr n s.1 h = s := by
  apply Subtype.ext
  apply List.takeWhile_eq_self_iff.2
  intro b hb
  exact decide_eq_true fun h0 => s.2.2 (h0 ▸ hb)

/-! ## Messages from a worker -/

/-- `GetRequestParsed` and `PutRequestParsed`. -/
structure GenericRequestParsed where
  processId : Text NAME_LENGTH
  name : Text NAME_LENGTH
  state : Bool

structure InvocationRequestParsed where
  processId : Text ID_LENGTH
  invocationId : Text ID_LENGTH
  functionName : Text NAME_LENGTH

structure InvocationResultParsed where
  invocationId : Text ID_LENGTH
  returnCode : Int

/-- `Message::MessageVariants`, as far as a worker sends them. -/
inductive MessageVariants where
  | getRequest (req : GenericRequestParsed)
  | putRequest (req : GenericRequestParsed)
  | invocationRequest (req : InvocationRequestParsed)
  | invocationResult (req : InvocationResultParsed)
  | stateKeysRequest

/-! ## Messages to a worker -/

structure GetRequest where
  processId : Text NAME_LENGTH := default
  name : Text NAME_LENGTH := default
  state : Bool := false
deriving DecidableEq, Repr

structure InvocationRequest where
  invocationId : Text ID_LENGTH := default
  functionName : Text NAME_LENGTH := default
  /-- The lengths in the table of buffers. -/
  buffers : List Int := []
deriving DecidableEq, Repr

structure InvocationResult where
  invocationId : Text ID_LENGTH := default
  returnCode : Int := 0
  bufferLength : Int := 0
deriving DecidableEq, Repr

structure ApplicationUpdate where
  processId : Text NAME_LENGTH := default
  statusChange : Int := 0
deriving DecidableEq, Repr

/-- The string setters: `strncpy` into the field, after the length is checked. -/
def setText (what : String) (limit : ℕ) (s : Str) : Except Fault (Text limit) :=
  if h : s.length ≤ limit then .ok (Text.ofStr limit s h)
  else .error (.invalidArgument what s.length limit)

theorem setText_ok {what : String} {limit : ℕ} {s : Str} (h : s.length ≤ limit) :
    setText what limit s = .ok (Text.ofStr limit s h) := by
  unfold setText
  rw [dif_pos h]

/-- A string that was read from a field goes back into one unchanged. -/
theorem setText_text {what : String} {limit : ℕ} (s : Text limit) :
    setText what limit s.1 = .ok s := by
  rw [setText_ok s.2.1, Text.ofStr_text]

namespace GetRequest

def setProcessId (m : GetRequest) (s : Str) : Except Fault GetRequest := do
  return { m with processId := ← setText "Process name too long" NAME_LENGTH s }

def setName (m : GetRequest) (s : Str) : Except Fault GetRequest := do
  return { m with name := ← setText "Process name too long" NAME_LENGTH s }

theorem setProcessId_ok {m : GetRequest} {s : Str} (h : s.length ≤ NAME_LENGTH) :
    m.setProcessId s = .ok { m with processId := Text.ofStr NAME_LENGTH s h } := by
  unfold setProcessId
  rw [setText_ok h]
  rfl

theorem setProcessId_text {m : GetRequest} (s : Text NAME_LENGTH) :
    m.setProcessId s.1 = .ok { m with processId := s } := by
  unfold setProcessId
  rw [setText_text]
  rfl

theorem setName_text {m : GetRequest} (s : Text NAME_LENGTH) :
    m.setName s.1 = .ok { m with name := s } := by
  unfold setName
  rw [setText_text]
  rfl

end GetRequest

namespace InvocationRequest

/-- The buffers whose length the table in the header has room for. -/
def TABLE_LENGTH : ℕ := 13

def MAX_BUFFERS : ℕ := 16

def setInvocationId (m : InvocationRequest) (s : Str) : Except Fault InvocationRequest := do
  return { m with invocationId := ← setText "Invocation ID too long" ID_LENGTH s }

def setFunctionName (m : InvocationRequest) (s : Str) : Except Fault InvocationRequest := do
  return { m with functionName := ← setText "Function name too long" NAME_LENGTH s }

theorem setInvocationId_text {m : InvocationRequest} (s : Text ID_LENGTH) :
    m.setInvocationId s.1 = .ok { m with invocationId := s } := by
  unfold setInvocationId
  rw [setText_text]
  rfl

theorem setFunctionName_text {m : InvocationRequest} (s : Text NAME_LENGTH) :
    m.setFunctionName s.1 = .ok { m with functionName := s } := by
  unfold setFunctionName
  rw [setText_text]
  rfl

/-- The limit that is checked is larger than the table; what lies between is
written past the header. -/
def setBuffers (m : InvocationRequest) (lengths : List ℕ) : Except Fault InvocationRequest :=
  if MAX_BUFFERS < lengths.length then
    .error (.invalidArgument "Number of buffers too large" lengths.length MAX_BUFFERS)
  else if TABLE_LENGTH < lengths.length then .error .outOfBounds
  else .ok { m with buffers := lengths.map toInt32 }

theorem setBuffers_ok {m : InvocationRequest} {lengths : List ℕ}
    (h : lengths.length ≤ TABLE_LENGTH) :
    m.setBuffers lengths = .ok { m with buffers := lengths.map toInt32 } := by
  unfold setBuffers
  rw [if_neg (by unfold TABLE_LENGTH at h; unfold MAX_BUFFERS; omega), if_neg (by omega)]

theorem setBuffers_fits {m m' : InvocationRequest} {lengths : List ℕ}
    (h : m.setBuffers lengths = .ok m') :
    lengths.length ≤ TABLE_LENGTH ∧ m' = { m with buffers := lengths.map toInt32 } := by
  unfold setBuffers at h
  split_ifs at h with hmax htable
  exact ⟨not_lt.1 htable, (Except.ok.inj h).symm⟩

/-- Only the table is written. -/
theorem setBuffers_eq {m m' : InvocationRequest} {lengths : List ℕ}
    (h : m.setBuffers lengths = .ok m') : ∃ buffers, m' = { m with buffers := buffers } := by
  unfold setBuffers at h
  split_ifs at h
  exact ⟨_, (Except.ok.inj h).symm⟩

end InvocationRequest

namespace InvocationResult

def setInvocationId (m : InvocationResult) (s : Str) : Except Fault InvocationResult := do
  return { m with invocationId := ← setText "Invocation ID too long" ID_LENGTH s }

theorem setInvocationId_text {m : InvocationResult} (s : Text ID_LENGTH) :
    m.setInvocationId s.1 = .ok { m with invocationId := s } := by
  unfold setInvocationId
  rw [setText_text]
  rfl

end InvocationResult

namespace ApplicationUpdate

def setProcessId (m : ApplicationUpdate) (s : Str) : Except Fault ApplicationUpdate := do
  return { m with processId := ← setText "Process ID too long" NAME_LENGTH s }

end ApplicationUpdate

end Praas.Process.Ipc
