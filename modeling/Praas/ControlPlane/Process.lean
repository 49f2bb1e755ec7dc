import Praas.Common.Messages

/-! # A process as the control plane sees it

`praas::control_plane::process::Process`: the state of one process object, what
is sent to its data plane, the invocations that wait for a result and the callback
of the request that created it.

An operation that may raise returns what it changed before it raised.
-/

namespace Praas.ControlPlane

open Message (MessageData)

abbrev AppId := ℕ
abbrev ProcId := ℕ
abbrev ConnId := ℕ

/-- `process::Status`. -/
inductive Status where
  | ALLOCATING | ALLOCATED | SWAPPED_OUT | SWAPPING_OUT | SWAPPING_IN | CLOSED | FAILURE
deriving DecidableEq, Repr

/-- What an operation of the control plane raises. -/
inductive Failure where
  | invalidConfiguration (what : String)
  | objectExists (name : Str)
  | objectDoesNotExist (name : Str)
  | invalidProcessState (what : String)
  | invalidNumber
  | fault (f : Fault)
deriving DecidableEq, Repr

/-- An invocation that was submitted by an HTTP request; `id` is the part of its
identifier that is sent. -/
structure Invocation where
  id : Str
  functionName : Str
  payload : List Byte
  submitted : Bool := false
deriving DecidableEq, Repr

/-- `_creation_callback`: the response to the request that created the process, or
the invocation the process was created for. -/
inductive CreationCallback where
  | response
  | invoke (invocation : Invocation)
deriving DecidableEq, Repr

/-- What is written to the connection of a process. -/
inductive Outgoing where
  | swapRequest (msg : List Byte)
  | invocationRequest (msg : List Byte) (payload : List Byte)
deriving DecidableEq, Repr

/-- The answer to an HTTP request: the call of the callback of an invocation. -/
structure Response where
  invocation : Invocation
  returnCode : Int
  result : List Byte
deriving DecidableEq, Repr

structure Process where
  name : Str
  application : AppId
  status : Status := .ALLOCATING
  /-- The backend has returned the instance. -/
  handle : Bool := false
  connection : Option ConnId := none
  sent : List Outgoing := []
  /-- The root path of the swap location. -/
  swapPath : Option Str := none
  waitForAllocation : Bool := false
  creationCallback : Option CreationCallback := none
  /-- Calls of `ProcessInstance::connect` that have not completed. -/
  connecting : ℕ := 0
  /-- The errors with which the creation callback was called. -/
  created : List (Option Str) := []
  activeInvocations : Int := 0
  invocations : List Invocation := []
  responses : List Response := []
deriving DecidableEq, Repr

/-- The header of `_send_invocation`. -/
def Invocation.header (i : Invocation) : Except Fault MessageData := do
  let msg := MessageData.new .invocationRequest
  let msg ← Message.InvocationRequest.setFunctionName msg (.ofStr i.functionName)
  let msg ← Message.InvocationRequest.setInvocationId msg (.ofStr i.id)
  let msg ← Message.InvocationRequest.setPayloadSize msg (toInt32 i.payload.length)
  return msg.setTotalLength (toInt32 i.payload.length)

namespace Process

def setHandle (p : Process) : Process :=
  { p with handle := true }

/-- `send_invocations`: the first header that cannot be built ends the loop. -/
def sendInvocations : List Invocation → List Invocation × List Outgoing × Option Failure
  | [] => ([], [], none)
  | i :: rest =>
    if i.submitted then
      let (rest', sent, raised) := sendInvocations rest
      (i :: rest', sent, raised)
    else
      match i.header with
      | .ok msg =>
        let (rest', sent, raised) := sendInvocations rest
        ({ i with submitted := true } :: rest', .invocationRequest msg.buf i.payload :: sent, raised)
      | .error f => (i :: rest, [], some (.fault f))

def createdCallback (p : Process) (error : Option Str) : Process :=
  if p.creationCallback.isNone then p
  else
    match error with
    | none =>
      -- success is reported once the backend and the process have both answered
      if ¬ p.handle then p
      else if p.waitForAllocation ∧ p.status ≠ .ALLOCATED then p
      else { p with connecting := p.connecting + 1 }
    -- a failure is always reported
    | some e => { p with creationCallback := none, created := p.created ++ [some e] }

def connect (p : Process) (c : ConnId) : Process × Option Failure :=
  if p.status ≠ .ALLOCATING then (p, some (.invalidProcessState "Can't register process"))
  else
    -- connection and status are set before the pending invocations are sent
    let (invocations, sent, raised) := sendInvocations p.invocations
    let p' := { p with
      connection := some c
      status := .ALLOCATED
      invocations := invocations
      sent := p.sent ++ sent }
    match raised with
    | some f => (p', some f)
    | none => (p'.createdCallback none, none)

def closeConnection (p : Process) : Process :=
  { p with status := .CLOSED, connection := none }

def swap (p : Process) : Process × Option Failure :=
  match p.connection, p.swapPath with
  -- without a connection nothing is sent, and nothing is raised
  | none, _ => (p, none)
  | some _, none => (p, some (.fault .nullPointer))
  | some _, some path =>
    match Message.SwapRequest.setPath (.new .swapRequest) (.ofStr path) with
    | .ok msg => ({ p with sent := p.sent ++ [.swapRequest msg.buf] }, none)
    | .error f => (p, some (.fault f))

def addInvocation (p : Process) (i : Invocation) : Process × Option Failure :=
  -- pending invocations count, too
  let p' := { p with
    invocations := p.invocations ++ [i]
    activeInvocations := p.activeInvocations + 1 }
  if p.status = .ALLOCATED then
    match i.header with
    | .ok msg =>
      ({ p' with
        invocations := p.invocations ++ [{ i with submitted := true }]
        sent := p.sent ++ [.invocationRequest msg.buf i.payload] }, none)
    | .error f => (p', some (.fault f))
  else (p', none)

def finishInvocation (p : Process) (id : Str) (returnCode : Int) (result : List Byte) : Process :=
  match p.invocations.find? (fun i => i.id = id) with
  | some i =>
    { p with
      activeInvocations := p.activeInvocations - 1
      invocations := p.invocations.eraseP fun i => i.id = id
      responses := p.responses ++ [⟨i, returnCode, result⟩] }
  -- a result that no invocation waits for is ignored
  | none => p

/-- What `created_callback` has passed to `ProcessInstance::connect`. -/
def instanceConnected (p : Process) (error : Option Str) : Process × Option Failure :=
  match p.creationCallback, error with
  -- an empty `std::function` is called
  | none, _ => (p, some (.fault .nullPointer))
  | some _, some e =>
    ({ p with creationCallback := none, created := p.created ++ [some e] }, none)
  | some .response, none =>
    ({ p with creationCallback := none, created := p.created ++ [none] }, none)
  | some (.invoke i), none =>
    match p.addInvocation i with
    | (p', none) => ({ p' with creationCallback := none, created := p'.created ++ [none] }, none)
    -- what the callback raises comes before the callback is reset
    | (p', some f) => ({ p' with created := p'.created ++ [none] }, some f)

/-! ## The creation callback -/

section CreationCallback

variable {p : Process}

/-- Success is not reported yet, or not any more. -/
theorem createdCallback_keeps (h : p.creationCallback = none ∨ p.handle = false ∨
    p.waitForAllocation = true ∧ p.status ≠ .ALLOCATED) : p.createdCallback none = p := by
  unfold createdCallback
  dsimp only
  rcases h with hnone | hhandle | hwait
  · rw [if_pos (by simp [hnone])]
  · simp [hhandle]
  · simp [hwait]

theorem createdCallback_starts (hcallback : p.creationCallback.isSome) (hhandle : p.handle = true)
    (hwait : p.waitForAllocation = true → p.status = .ALLOCATED) :
    p.createdCallback none = { p with connecting := p.connecting + 1 } := by
  unfold createdCallback
  dsimp only
  rw [if_neg (by simp [Option.isSome_iff_ne_none.1 hcallback]), if_neg (not_not.2 hhandle),
    if_neg (fun h => h.2 (hwait h.1))]

theorem createdCallback_failed (hcallback : p.creationCallback.isSome) (error : Str) :
    p.createdCallback (some error) =
      { p with creationCallback := none, created := p.created ++ [some error] } := by
  unfold createdCallback
  rw [if_neg (by simp [Option.isSome_iff_ne_none.1 hcallback])]

end CreationCallback

/-! ## What an operation changes -/

theorem createdCallback_changes (p : Process) (error : Option Str) :
    ∃ callback n created, p.createdCallback error =
      { p with creationCallback := callback, connecting := n, created := created } := by
  unfold createdCallback
  cases error with
  | none =>
    dsimp only
    split_ifs
    · exact ⟨_, _, _, rfl⟩
    · exact ⟨_, _, _, rfl⟩
    · exact ⟨_, _, _, rfl⟩
    · exact ⟨_, _, _, rfl⟩
  | some e =>
    dsimp only
    split_ifs
    · exact ⟨_, _, _, rfl⟩
    · exact ⟨_, _, _, rfl⟩

theorem addInvocation_changes (p : Process) (i : Invocation) :
    ∃ l sent, (p.addInvocation i).1 =
      { p with
        invocations := l
        activeInvocations := p.activeInvocations + 1
        sent := sent } := by
  unfold addInvocation
  dsimp only
  split_ifs
  · split
    · exact ⟨_, _, rfl⟩
    · exact ⟨_, _, rfl⟩
  · exact ⟨_, _, rfl⟩

theorem finishInvocation_changes (p : Process) (id : Str) (returnCode : Int)
    (result : List Byte) :
    ∃ l n responses, n ≤ p.activeInvocations ∧ p.finishInvocation id returnCode result =
      { p with invocations := l, activeInvocations := n, responses := responses } := by
  unfold finishInvocation
  split
  · exact ⟨_, _, _, Int.sub_le_self _ Int.one_nonneg, rfl⟩
  · exact ⟨_, _, _, le_rfl, rfl⟩

theorem swap_changes (p : Process) : ∃ sent, p.swap.1 = { p with sent := sent } := by
  unfold swap
  split
  · exact ⟨_, rfl⟩
  · exact ⟨_, rfl⟩
  · split
    · exact ⟨_, rfl⟩
    · exact ⟨_, rfl⟩

/-- The callback may add the invocation that the process was created for. -/
theorem instanceConnected_changes (p : Process) (error : Option Str) :
    ∃ l n sent callback created, (p.instanceConnected error).1 =
      { p with
        invocations := l
        activeInvocations := n
        sent := sent
        creationCallback := callback
        created := created } := by
  unfold instanceConnected
  split
  · exact ⟨_, _, _, _, _, rfl⟩
  · exact ⟨_, _, _, _, _, rfl⟩
  · exact ⟨_, _, _, _, _, rfl⟩
  case h_4 i hcallback =>
    rcases addInvocation_changes p i with ⟨l, sent, hadd⟩
    split
    case h_1 p' heq =>
      rw [heq] at hadd
      subst hadd
      exact ⟨_, _, _, _, _, rfl⟩
    case h_2 p' f heq =>
      rw [heq] at hadd
      subst hadd
      exact ⟨_, _, _, _, _, rfl⟩

/-! ## What the tables depend on -/

/-- The name, the application and the status of a process. -/
def place (p : Process) : Str × AppId × Status := (p.name, p.application, p.status)

theorem status_of_place {p q : Process} (h : p.place = q.place) : p.status = q.status :=
  congrArg (fun x => x.2.2) h

@[simp] theorem place_setHandle (p : Process) : p.setHandle.place = p.place := rfl

@[simp] theorem place_createdCallback (p : Process) (error : Option Str) :
    (p.createdCallback error).place = p.place := by
  rcases createdCallback_changes p error with ⟨callback, n, created, h⟩
  rw [h]
  rfl

@[simp] theorem place_addInvocation (p : Process) (i : Invocation) :
    (p.addInvocation i).1.place = p.place := by
  rcases addInvocation_changes p i with ⟨l, sent, h⟩
  rw [h]
  rfl

@[simp] theorem place_finishInvocation (p : Process) (id : Str) (returnCode : Int)
    (result : List Byte) : (p.finishInvocation id returnCode result).place = p.place := by
  rcases finishInvocation_changes p id returnCode result with ⟨l, n, responses, -, h⟩
  rw [h]
  rfl

@[simp] theorem place_instanceConnected (p : Process) (error : Option Str) :
    (p.instanceConnected error).1.place = p.place := by
  rcases instanceConnected_changes p error with ⟨l, n, sent, callback, created, h⟩
  rw [h]
  rfl

@[simp] theorem place_swap (p : Process) : p.swap.1.place = p.place := by
  rcases swap_changes p with ⟨sent, h⟩
  rw [h]
  rfl

/-- A process that is being allocated is allocated once it has connected. -/
theorem place_connect {p : Process} (h : p.status = .ALLOCATING) (c : ConnId) :
    (p.connect c).1.place = (p.name, p.application, .ALLOCATED) := by
  unfold connect
  rw [if_neg (by simp [h])]
  dsimp only
  split
  · rfl
  · rw [place_createdCallback]
    rfl

end Process

end Praas.ControlPlane
