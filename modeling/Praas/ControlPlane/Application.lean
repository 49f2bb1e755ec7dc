import Praas.ControlPlane.Process

/-! # The applications of the control plane

`praas::control_plane::Application`: the tables of the processes of an
application, and the operations that move a process between them. Process objects
are shared, so they are kept apart and the tables hold their numbers.
-/

namespace Praas.ControlPlane

instance : Inhabited Process := ⟨{ name := [], application := 0 }⟩

/-- The numbers in the texts of a request; `none` where `std::stod` raises. -/
structure Resources where
  memory : Option ℚ
  vcpus : Option ℚ
deriving DecidableEq

structure Backend where
  maxMemory : ℚ
  maxVcpus : ℚ

/-- What is raised for resources that the backend does not offer. -/
def Backend.rejects (b : Backend) (resources : Resources) : Option Failure :=
  match resources.memory with
  | none => some .invalidNumber
  | some memory =>
    if memory ≤ 0 ∨ b.maxMemory < memory then
      some (.invalidConfiguration "Incorrect memory size")
    else
      match resources.vcpus with
      | none => some .invalidNumber
      | some vcpus =>
        if vcpus ≤ 0 ∨ b.maxVcpus < vcpus then
          some (.invalidConfiguration "Incorrect number of vCPUs")
        else none

structure Application where
  activeProcesses : Str → Option ProcId := fun _ => none
  swappedProcesses : Str → Option ProcId := fun _ => none
  controlplaneProcesses : List ProcId := []

/-- A TCP connection: the process in its context, and whether it was shut down by a
closure message. -/
structure Connection where
  context : Option ProcId := none
  shutdown : Bool := false
deriving DecidableEq, Repr

/-- The operation whose callback the backend holds. -/
inductive Origin where
  | user
  | controlplane
deriving DecidableEq, Repr

structure State where
  procs : ProcId → Process := fun _ => default
  nextProc : ProcId := 0
  apps : AppId → Application := fun _ => {}
  /-- Allocations that the backend has not reported. -/
  allocations : ProcId → Option Origin := fun _ => none
  /-- `TCPServer`: the insertions queued in its loop, and its tables. -/
  tasks : List ProcId := []
  pendingProcesses : Str → Option ProcId := fun _ => none
  conns : ConnId → Option Connection := fun _ => none
  nextConn : ConnId := 0
  numConnectedProcesses : Int := 0
  numRegisteredProcesses : Int := 0

namespace State

@[simps] def setProcess (s : State) (p : ProcId) (proc : Process) : State :=
  { s with procs := Function.update s.procs p proc }

@[simps] def setActive (s : State) (a : AppId) (name : Str) (p : Option ProcId) : State :=
  { s with apps := Function.update s.apps a { s.apps a with
      activeProcesses := Function.update (s.apps a).activeProcesses name p } }

@[simps] def setSwapped (s : State) (a : AppId) (name : Str) (p : Option ProcId) : State :=
  { s with apps := Function.update s.apps a { s.apps a with
      swappedProcesses := Function.update (s.apps a).swappedProcesses name p } }

@[simps] def addControlplane (s : State) (a : AppId) (p : ProcId) : State :=
  { s with apps := Function.update s.apps a { s.apps a with
      controlplaneProcesses := (s.apps a).controlplaneProcesses ++ [p] } }

def setStatus (s : State) (p : ProcId) (status : Status) : State :=
  s.setProcess p { s.procs p with status := status }

/-- A new process, with its insertion queued by `TCPServer::add_process` and its
allocation requested from the backend. -/
@[simps] def allocate (s : State) (proc : Process) (origin : Origin) : State :=
  { s with
    procs := Function.update s.procs s.nextProc proc
    nextProc := s.nextProc + 1
    tasks := s.tasks ++ [s.nextProc]
    allocations := Function.update s.allocations s.nextProc (some origin) }

variable (b : Backend)

def addProcess (s : State) (a : AppId) (name : Str) (resources : Resources)
    (waitForAllocation : Bool) : Except Failure State :=
  if name.length = 0 then .error (.invalidConfiguration "Empty name")
  else
    match b.rejects resources with
    | some f => .error f
    | none =>
      if ((s.apps a).activeProcesses name).isSome then .error (.objectExists name)
      else
        .ok ((s.setActive a name (some s.nextProc)).allocate
          { name := name, application := a, waitForAllocation := waitForAllocation
            creationCallback := some .response } .user)

/-- `FIXME`: not a parameter yet. -/
def maxFuncsPerProcess : Int := 1

def controlplaneName (n : ℕ) : Str := str ("controlplane-".toList ++ (toString n).toList)

/-- With the callback of `Workers::handle_invocation`. -/
def getControlplaneProcess (s : State) (a : AppId) (i : Invocation) : State × Option Failure :=
  match (s.apps a).controlplaneProcesses.find? fun p =>
      (s.procs p).activeInvocations < maxFuncsPerProcess with
  | some p => (s.setProcess p ((s.procs p).addInvocation i).1, ((s.procs p).addInvocation i).2)
  -- no process is idle: one is created for the invocation, named by the length of the list
  | none =>
    (s.allocate
      { name := controlplaneName (s.apps a).controlplaneProcesses.length, application := a
        waitForAllocation := true, creationCallback := some (.invoke i) } .controlplane, none)

/-- The backend has reported an instance. -/
def allocated (s : State) (p : ProcId) (origin : Origin) : State :=
  let s' := s.setProcess p ((s.procs p).setHandle.createdCallback none)
  match origin with
  | .user => s'
  | .controlplane => s'.addControlplane (s.procs p).application p

/-- The backend has reported an error. `TCPServer::remove_process` does nothing; the
iterator that the callback holds points to the entry of `p` as long as there is one. -/
def allocationFailed (s : State) (p : ProcId) (origin : Origin) (error : Str) :
    Except Failure State :=
  let s' := s.setProcess p ((s.procs p).createdCallback (some error))
  match origin with
  | .user =>
    let proc := s.procs p
    if (s.apps proc.application).activeProcesses proc.name = some p then
      .ok (s'.setActive proc.application proc.name none)
    -- the entry is gone, or another process has its name
    else .error (.fault .danglingIterator)
  | .controlplane => .ok s'

def swapProcess (s : State) (a : AppId) (name : Str) (path : Str) : State × Option Failure :=
  if name.length = 0 then (s, some (.invalidConfiguration "Application name cannot be empty"))
  else
    match (s.apps a).activeProcesses name with
    | none => (s, some (.objectDoesNotExist name))
    | some p =>
      if (s.procs p).status ≠ .ALLOCATED then
        (s, some (.invalidProcessState "Cannot swap a non-allocated process"))
      else
        -- status and location are set before `swap` may raise
        let proc := { s.procs p with status := .SWAPPING_OUT, swapPath := some path }
        (s.setProcess p proc.swap.1, proc.swap.2)

/-- A node with a name that is taken is not inserted, and destroyed. -/
def swappedProcess (s : State) (a : AppId) (name : Str) : Except Failure State :=
  match (s.apps a).activeProcesses name with
  | none => .error (.objectDoesNotExist name)
  | some p =>
    if (s.procs p).status ≠ .SWAPPING_OUT then
      .error (.invalidProcessState "Cannot confirm a swap of non-swapping process")
    else
      let s' := (s.setActive a name none).setStatus p .SWAPPED_OUT
      if ((s.apps a).swappedProcesses name).isSome then .ok s'
      else .ok (s'.setSwapped a name (some p))

def closedProcess (s : State) (p : ProcId) : State :=
  let proc := s.procs p
  if proc.status ≠ .SWAPPED_OUT then
    -- a closure that was not announced by a swap is a failure
    let s' := s.setStatus p .FAILURE
    if ((s.apps proc.application).activeProcesses proc.name).isSome then
      s'.setActive proc.application proc.name none
    -- the entry is looked for by name, also when it is that of another process
    else s'.setSwapped proc.application proc.name none
  else s.setProcess p proc.closeConnection

def deleteProcess (s : State) (a : AppId) (name : Str) : Except Failure State :=
  if name.length = 0 then .error (.invalidConfiguration "Process name cannot be empty")
  else
    match (s.apps a).swappedProcesses name with
    | none => .error (.objectDoesNotExist name)
    | some p =>
      -- `delete_swap` is called on the location
      if (s.procs p).swapPath.isNone then .error (.fault .nullPointer)
      else .ok (s.setSwapped a name none)

end State

end Praas.ControlPlane
