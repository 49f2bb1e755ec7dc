import Mathlib.Data.Finset.Basic
import Praas.Common.Bytes
import Praas.Lib.Lts

/-! # The server that runs processes in Docker containers

`praas::serving::docker::HttpServer`: a request to create or to kill a process becomes a
chain of calls to Docker, each with a handler for its reply, and ends with the callback of
the request. `Processes` keeps the containers that were started.
-/

namespace Praas.Serving

def text (s : String) : Str := str s.toList

/-! ## JSON values, as `jsoncpp` accesses them -/

inductive Json where
  | null
  | bool (b : Bool)
  /-- With the text that `asString` prints. -/
  | number (digits : Str)
  | string (s : Str)
  | array (elements : List Json)
  | object (members : List (Str × Json))

/-- What is thrown, or dereferenced. -/
inductive Failure where
  | nullPointer
  | logicError
  | objectExists (id : Str)
  /-- `std::stoi`: no number, or out of range. -/
  | invalidNumber (s : Str)
deriving DecidableEq, Repr

namespace Json

def isNull : Json → Bool
  | null => true
  | _ => false

/-- `operator[]` with a key: a member that is missing is null, and null is taken for an
object. -/
def get (j : Json) (key : Str) : Except Failure Json :=
  match j with
  | object members => .ok ((members.lookup key).getD null)
  | null => .ok null
  | _ => .error .logicError

/-- `operator[]` with an index. -/
def index (j : Json) (i : ℕ) : Except Failure Json :=
  match j with
  | array elements => .ok (elements.getD i null)
  | null => .ok null
  | _ => .error .logicError

def asString : Json → Except Failure Str
  | null => .ok []
  | bool b => .ok (text (if b then "true" else "false"))
  | number digits => .ok digits
  | string s => .ok s
  | array _ | object _ => .error .logicError

end Json

def isSpace (c : Byte) : Bool := c = 32 ∨ (9 ≤ c ∧ c ≤ 13)

def isDigit (c : Byte) : Bool := 48 ≤ c ∧ c ≤ 57

/-- `std::stoi`: blanks, a sign, and at least one digit; what follows is ignored. -/
def stoi (s : Str) : Except Failure Int :=
  let unsigned (rest : Str) (sign : Int) : Except Failure Int :=
    let digits := rest.takeWhile isDigit
    let n : ℕ := digits.foldl (fun n c => 10 * n + (c.toNat - 48)) 0
    if digits = [] then .error (.invalidNumber s)
    else if -2 ^ 31 ≤ sign * n ∧ sign * n < 2 ^ 31 then .ok (sign * n)
    else .error (.invalidNumber s)
  match s.dropWhile isSpace with
  | 45 :: rest => unsigned rest (-1)
  | 43 :: rest => unsigned rest 1
  | rest => unsigned rest 1

/-! ## Processes -/

structure Process where
  processId : Str
  containerId : Str
deriving DecidableEq, Repr

abbrev Processes := Str → Option Process

namespace Processes

def add (ps : Processes) (id : Str) (proc : Process) : Except Failure Processes :=
  match ps id with
  | none => .ok (Function.update ps id (some proc))
  | some _ => .error (.objectExists id)

def erase (ps : Processes) (id : Str) : Processes := Function.update ps id none

end Processes

/-! ## Calls and responses -/

structure Options where
  serverIp : Str
  processPort : Int

/-- What a callback is called with. -/
inductive HttpResponse where
  | failed (reason : Str) (status : ℕ)
  | correct (status : Str)
  | created (status containerId processId ipAddress : Str) (port : Int)
deriving DecidableEq, Repr

def failedResponse (reason : Str) (status : ℕ := 500) : HttpResponse := .failed reason status

/-- A call to Docker, with what its reply handler captures. -/
inductive DockerCall where
  /-- `/containers/create` -/
  | create (process image controlplaneAddr : Str)
  /-- `/containers/{}/start` -/
  | start (process container : Str)
  /-- `/containers/{}/json` -/
  | inspect (process container : Str)
  /-- `/containers/{}/stop` -/
  | stop (process container : Str)
deriving DecidableEq, Repr

structure DockerResponse where
  status : ℕ
  /-- `getJsonObject`, null if the body is none. -/
  json : Option Json := none
  body : Str := []

/-- The end of a handler: the callback is called, or handed on to the next call. -/
inductive Outcome where
  | answer (r : HttpResponse)
  | call (c : DockerCall)

namespace HttpServer

/-- `Unknown error!`, the last branch of each reply handler. -/
def unknownError (r : DockerResponse) : HttpResponse :=
  failedResponse (text "Unknown error! Response: " ++ r.body)

/-- The two arguments in the body of a request; none if one of them is missing. -/
def readBody (body : Json) : Except Failure (Option (Str × Str)) := do
  let containerName ← body.get (text "container-name")
  let controlplaneAddr ← body.get (text "controlplane-address")
  if containerName.isNull ∨ controlplaneAddr.isNull then return none
  else return some (← containerName.asString, ← controlplaneAddr.asString)

def create (process : Str) (body : Option Json) : Except Failure Outcome :=
  if process = [] then .ok (.answer (failedResponse (text "Missing arguments!")))
  else match body with
    | none => .ok (.answer (failedResponse (text "Missing body!")))
    | some body => do
      match ← readBody body with
      | none => return .answer (failedResponse (text "Missing arguments in request body!"))
      | some (containerName, controlplaneAddr) =>
        return .call (.create process containerName controlplaneAddr)

def readId (r : DockerResponse) : Except Failure Str :=
  match r.json with
  | none => .error .nullPointer
  | some json => do (← json.get (text "Id")).asString

/-- The reply handler of `create`. -/
def created (process : Str) (r : DockerResponse) : Except Failure Outcome :=
  if r.status = 409 then
    .ok (.answer (failedResponse
      (text "Container for process " ++ process ++ text " already exists")))
  else if r.status = 201 then do
    let containerId ← readId r
    return .call (.start process containerId)
  else .ok (.answer (unknownError r))

/-- The reply handler of `_start_container`. -/
def started (ps : Processes) (process container : Str) (r : DockerResponse) :
    Except Failure (Processes × Outcome) :=
  if r.status = 404 then
    .ok (ps, .answer (failedResponse (text "Failure - container " ++ container ++
      text " for process " ++ process ++ text " no longer exists")))
  else if r.status = 204 then do
    let ps ← ps.add process ⟨process, container⟩
    return (ps, .call (.inspect process container))
  else .ok (ps, .answer (unknownError r))

def portKey (opts : Options) : Str := text (toString opts.processPort) ++ text "/tcp"

def readPort (opts : Options) (r : DockerResponse) : Except Failure Int :=
  match r.json with
  | none => .error .nullPointer
  | some json => do
    let settings ← json.get (text "NetworkSettings")
    let ports ← settings.get (text "Ports")
    let bindings ← ports.get (portKey opts)
    let port ← (← bindings.index 0).get (text "HostPort")
    stoi (← port.asString)

/-- The reply handler of `_inspect_container`. -/
def inspected (opts : Options) (process container : Str) (r : DockerResponse) :
    Except Failure Outcome :=
  if r.status = 200 then do
    let port ← readPort opts r
    return .answer (.created (text "Container for process " ++ process ++ text " created.")
      container process opts.serverIp port)
  else .ok (.answer (unknownError r))

/-- `kill`: after the response for a process that is not there the handler does not return,
and reads the container through an empty accessor. -/
def kill (ps : Processes) (process : Str) : List HttpResponse × Except Failure DockerCall :=
  match ps process with
  | none =>
    ([failedResponse (text "Container for process " ++ process ++ text " does not exist!") 404],
      .error .nullPointer)
  | some p => ([], .ok (.stop process p.containerId))

/-- The reply handler of `kill`. -/
def stopped (ps : Processes) (process container : Str) (r : DockerResponse) :
    Processes × Outcome :=
  if r.status = 404 then
    (ps, .answer (failedResponse (text "Failure - container " ++ container ++
      text " for process " ++ process ++ text " does not exist")))
  else if r.status = 204 then
    (ps.erase process,
      .answer (.correct (text "Container for process " ++ process ++ text " removed.")))
  else (ps, .answer (unknownError r))

/-- The reply handler of a call. The result of a request is not looked at: without a
response the handler dereferences null. -/
def reply (opts : Options) (ps : Processes) (c : DockerCall) (response : Option DockerResponse) :
    Except Failure (Processes × Outcome) :=
  match response with
  | none => .error .nullPointer
  | some r =>
    match c with
    | .create process _ _ => do return (ps, ← created process r)
    | .start process container => started ps process container r
    | .inspect process container => do return (ps, ← inspected opts process container r)
    | .stop process container => .ok (stopped ps process container r)

end HttpServer

/-! ## Requests and replies in any order -/

/-- The server, with the calls to Docker that are not answered yet, under the request each
belongs to, and what has become of the requests and the containers. -/
structure System where
  processes : Processes := fun _ => none
  calls : List (ℕ × DockerCall) := []
  requests : ℕ := 0
  answers : List (ℕ × HttpResponse) := []
  /-- The containers, with their processes, that were started and not stopped by `kill`. -/
  running : Finset (Str × Str) := ∅

inductive Event where
  | create (process : Str) (body : Option Json)
  | kill (process : Str)
  /-- The reply to one of the calls. -/
  | reply (k : ℕ) (response : Option DockerResponse)

namespace System

def finish (s : System) (id : ℕ) : Outcome → System
  | .answer r => { s with answers := s.answers ++ [(id, r)] }
  | .call c => { s with calls := s.calls ++ [(id, c)] }

/-- What Docker has done, by its reply. -/
def runningAfter (s : System) (c : DockerCall) (response : Option DockerResponse) :
    Finset (Str × Str) :=
  match c, response with
  | .start process container, some r =>
    if r.status = 204 then insert (process, container) s.running else s.running
  | .stop process container, some r =>
    if r.status = 204 then s.running.erase (process, container) else s.running
  | _, _ => s.running

/-- One request, or one reply; an exception that leaves a handler ends the run. -/
def step (opts : Options) (s : System) : Event → Except Failure System
  | .create process body => do
    let out ← HttpServer.create process body
    return { s with requests := s.requests + 1 }.finish s.requests out
  | .kill process => do
    let r := HttpServer.kill s.processes process
    let c ← r.2
    return { s with
      requests := s.requests + 1
      answers := s.answers ++ r.1.map fun response => (s.requests, response)
      }.finish s.requests (.call c)
  | .reply k response =>
    match s.calls[k]? with
    | none => .ok s
    | some (id, c) => do
      let r ← HttpServer.reply opts s.processes c response
      return { s with
        processes := r.1
        calls := s.calls.eraseIdx k
        running := s.runningAfter c response }.finish id r.2

end System

end Praas.Serving
