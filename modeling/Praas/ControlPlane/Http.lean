import Praas.ControlPlane.TcpServer

/-! # The requests to the control plane

`praas::control_plane::HttpServer` and `worker::Workers`: the handler of a request
answers or adds a task to the pool, and the task works on the tables of an application.
The callback of a request is called with each of its responses.
-/

namespace Praas.ControlPlane

/-- What a callback is called with. -/
inductive HttpResponse where
  | failed (reason : Str) (status : ℕ)
  | correct (message : Str)
  | process (name : Str)
  /-- The names in the two tables, under their keys. -/
  | processes (application : Str) (active swapped : Str → Option Str)

/-- `Resources`: the applications by their names. -/
structure Applications where
  state : State := {}
  applications : Str → Option AppId := fun _ => none
  nextApp : AppId := 0

/-- `std::stod`, which raises for the empty text; a text that stands for no number but
passes all comparisons, as `nan` does, is like one for a number in range. -/
structure Stod where
  parse : Str → Option ℚ
  parse_nil : parse [] = none

def text (s : String) : Str := str s.toList

namespace Applications

def addApplication (r : Applications) (name : Str) : Except Failure Applications :=
  if name.length = 0 then .error (.invalidConfiguration "Application name cannot be empty")
  else if (r.applications name).isSome then .error (.objectExists name)
  else .ok { r with
    applications := Function.update r.applications name (some r.nextApp)
    nextApp := r.nextApp + 1 }

end Applications

namespace Workers

/-- Every exception of the control plane is caught. -/
def createApplication (r : Applications) (name : Str) : Bool × Applications :=
  match r.addApplication name with
  | .ok r' => (true, r')
  | .error _ => (false, r)

/-- With the process that now holds the callback; none if there is no such application. -/
def createProcess (b : Backend) (r : Applications) (app name : Str) (resources : Resources) :
    Except Failure (Option ProcId × Applications) :=
  match r.applications app with
  | none => .ok (none, r)
  | some a =>
    match r.state.addProcess b a name resources true with
    | .ok t => .ok (some r.state.nextProc, { r with state := t })
    | .error f => .error f

/-- The reason of a failure, if there is one; only a missing process is caught. -/
def deleteProcess (r : Applications) (app name : Str) :
    Except Failure (Option Str × Applications) :=
  match r.applications app with
  | none => .ok (some (text "Application does not exist"), r)
  | some a =>
    match r.state.deleteProcess a name with
    | .ok t => .ok (none, { r with state := t })
    | .error (.objectDoesNotExist _) =>
      .ok (some (text "Process does not exist or is not swapped out."), r)
    | .error f => .error f

def swapProcess (path : Str) (r : Applications) (app name : Str) :
    Except Failure (Option Str × Applications) :=
  match r.applications app with
  | none => .ok (some (text "Application does not exist"), r)
  | some a =>
    match r.state.swapProcess a name path with
    | (t, none) => .ok (none, { r with state := t })
    | (_, some (.objectDoesNotExist _)) => .ok (some (text "Process does not exist."), r)
    | (_, some (.invalidProcessState _)) =>
      .ok (some (text "Process cannot be swapped out (not allocated, not active)."), r)
    | (_, some f) => .error f

/-- The names in the tables of the application, or the reason of the failure. -/
def listProcesses (r : Applications) (app : Str) :
    Option Str × (Str → Option Str) × (Str → Option Str) :=
  match r.applications app with
  | none => (some (text "Application does not exist"), fun _ => none, fun _ => none)
  | some a =>
    (none, fun name => ((r.state.apps a).activeProcesses name).map fun p => (r.state.procs p).name,
      fun name => ((r.state.apps a).swappedProcesses name).map fun p => (r.state.procs p).name)

end Workers

inductive Request where
  | createApp (app cloudResourceName : Str)
  | createProcess (app process vcpus memory : Str)
  | deleteProcess (app process : Str)
  | swapProcess (app process : Str)
  | listProcesses (app : Str)
deriving DecidableEq

/-- What has become of a request when its task is done. -/
structure Outcome where
  applications : Applications
  responses : List HttpResponse
  /-- The process that holds the callback. -/
  holder : Option ProcId := none
  /-- What has left the task. -/
  raised : Option Failure := none

namespace HttpServer

def failedResponse (reason : Str) (status : ℕ := 500) : HttpResponse := .failed reason status

/-- The callback that `create_process` gives to a process. -/
def created (name : Str) : Option Str → HttpResponse
  | none => .process name
  | some error => failedResponse error

/-- The handler: its response, and whether it adds a task. -/
def handler : Request → List HttpResponse × Bool
  | .createApp _ cloudResourceName =>
    if cloudResourceName.length = 0 then ([failedResponse (text "Missing arguments!")], false)
    else ([], true)
  | .createProcess _ _ vcpus memory =>
    -- there is no return after the response
    if vcpus.length = 0 ∨ memory.length = 0 then ([failedResponse (text "Missing arguments!")], true)
    else ([], true)
  | _ => ([], true)

/-- The task, run by a worker. -/
def task (stod : Stod) (b : Backend) (path : Str) (r : Applications) : Request → Outcome
  | .createApp app _ =>
    let (created, r') := Workers.createApplication r app
    ⟨r', [if created then .correct (text "Created") else failedResponse (text "Failed to create")],
      none, none⟩
  | .createProcess app process vcpus memory =>
    match Workers.createProcess b r app process ⟨stod.parse memory, stod.parse vcpus⟩ with
    | .ok (holder, r') => ⟨r', [], holder, none⟩
    | .error f => ⟨r, [], none, some f⟩
  | .deleteProcess app process =>
    match Workers.deleteProcess r app process with
    | .ok (some reason, r') => ⟨r', [failedResponse reason 400], none, none⟩
    | .ok (none, r') =>
      ⟨r', [.correct (text "Deleted swapped state of process " ++ process ++ text ".")], none, none⟩
    | .error f => ⟨r, [], none, some f⟩
  | .swapProcess app process =>
    match Workers.swapProcess path r app process with
    | .ok (some reason, r') => ⟨r', [failedResponse reason 400], none, none⟩
    | .ok (none, r') =>
      ⟨r', [.correct (text "Request swapping of process " ++ process ++ text ".")], none, none⟩
    | .error f => ⟨r, [], none, some f⟩
  | .listProcesses app =>
    let (response, active, swapped) := Workers.listProcesses r app
    -- nor is there one here
    ⟨r, (match response with
      | some reason => [failedResponse reason 400]
      | none => []) ++ [.processes app active swapped], none, none⟩

/-- A request, with its task run in the state `r`. -/
def serve (stod : Stod) (b : Backend) (path : Str) (r : Applications) (request : Request) : Outcome :=
  if (handler request).2 then
    let out := task stod b path r request
    { out with responses := (handler request).1 ++ out.responses }
  else ⟨r, (handler request).1, none, none⟩

end HttpServer

end Praas.ControlPlane
