import Praas.Lib.Lts
import Praas.ControlPlane.Application

/-! # The control plane as a system

`praas::control_plane::tcpserver::TCPServer`: the processes that are expected to
connect, the connections and the messages on them, and the step function of the
control plane, whose events are the requests, what the backend reports, and what
happens on the connections.
-/

namespace Praas.ControlPlane

namespace State

/-- The next insertion into the table of pending processes. -/
def runTask (s : State) : Except Failure State :=
  match s.tasks with
  | [] => .ok s
  | p :: rest =>
    if (s.pendingProcesses (s.procs p).name).isSome then .error (.objectExists (s.procs p).name)
    else .ok { s with
      tasks := rest
      pendingProcesses := Function.update s.pendingProcesses (s.procs p).name (some p) }

def connected (s : State) : State :=
  { s with
    conns := Function.update s.conns s.nextConn (some {})
    nextConn := s.nextConn + 1
    numConnectedProcesses := s.numConnectedProcesses + 1 }

def handleConnection (s : State) (c : ConnId) (conn : Connection) (name : Str) :
    Except Failure State :=
  match s.pendingProcesses name with
  -- an unknown process is ignored; its connection stays open
  | none => .ok s
  | some p =>
    let s' := { s.setProcess p ((s.procs p).connect c).1 with
      pendingProcesses := Function.update s.pendingProcesses name none
      conns := Function.update s.conns c (some { conn with context := some p }) }
    match ((s.procs p).connect c).2 with
    | some f => .error f
    | none => .ok { s' with numRegisteredProcesses := s.numRegisteredProcesses + 1 }

/-- The counters of a registered connection that closes. -/
@[simps] def deregister (s : State) : State :=
  { s with
    numConnectedProcesses := s.numConnectedProcesses - 1
    numRegisteredProcesses := s.numRegisteredProcesses - 1 }

def handleDisconnection (s : State) (conn : Connection) : State :=
  match conn.context with
  -- it has never registered
  | none => { s with numConnectedProcesses := s.numConnectedProcesses - 1 }
  | some p => s.deregister.closedProcess p

def handleClosure (s : State) (c : ConnId) (conn : Connection) : State :=
  let s' := s.handleDisconnection conn
  -- the context stays: the callback for the end of the connection finds the process again
  { s' with conns := Function.update s'.conns c (some { conn with shutdown := true }) }

/-- The connection callback for a connection that is gone. -/
def disconnected (s : State) (c : ConnId) (conn : Connection) : State :=
  let s' := s.handleDisconnection conn
  { s' with conns := Function.update s'.conns c none }

end State

inductive Event where
  | addProcess (a : AppId) (name : Str) (resources : Resources) (waitForAllocation : Bool)
  | invoke (a : AppId) (i : Invocation)
  | swapProcess (a : AppId) (name : Str) (path : Str)
  | swappedProcess (a : AppId) (name : Str)
  | deleteProcess (a : AppId) (name : Str)
  | allocated (p : ProcId)
  | allocationFailed (p : ProcId) (error : Str)
  | instanceConnected (p : ProcId) (error : Option Str)
  | runTask
  | connected
  | processConnection (c : ConnId) (name : Str)
  | invocationResult (c : ConnId) (id : Str) (returnCode : Int) (result : List Byte)
  | swapConfirmation (c : ConnId)
  | processClosure (c : ConnId)
  | disconnected (c : ConnId)
deriving DecidableEq

namespace State

/-- A request that raises leaves the state as it was. -/
def orKeep (s : State) : Except Failure State → Except Failure State
  | .ok t => .ok t
  | .error (.fault f) => .error (.fault f)
  | .error _ => .ok s

/-- A connection that has registered: its messages are those of the process. -/
def registered (s : State) (c : ConnId) : Option (Connection × ProcId) :=
  match s.conns c with
  | some conn => conn.context.map (conn, ·)
  | none => none

variable (b : Backend)

/-- What the event loop of the server raises ends the run. -/
def step (s : State) : Event → Except Failure State
  | .addProcess a name resources wait => s.orKeep (s.addProcess b a name resources wait)
  | .invoke a i => .ok (s.getControlplaneProcess a i).1
  | .swapProcess a name path => .ok (s.swapProcess a name path).1
  | .swappedProcess a name => s.orKeep (s.swappedProcess a name)
  | .deleteProcess a name => s.orKeep (s.deleteProcess a name)
  | .allocated p =>
    match s.allocations p with
    | some origin =>
      .ok ({ s with allocations := Function.update s.allocations p none }.allocated p origin)
    | none => .ok s
  | .allocationFailed p error =>
    match s.allocations p with
    | some origin =>
      { s with allocations := Function.update s.allocations p none }.allocationFailed p origin error
    | none => .ok s
  | .instanceConnected p error =>
    let proc := s.procs p
    if proc.connecting = 0 then .ok s
    else .ok (s.setProcess p
      ({ proc with connecting := proc.connecting - 1 }.instanceConnected error).1)
  | .runTask => s.runTask
  | .connected => .ok s.connected
  | .processConnection c name =>
    match s.conns c with
    | some conn => if conn.context.isSome then .ok s else s.handleConnection c conn name
    | none => .ok s
  | .invocationResult c id returnCode result =>
    match s.registered c with
    | some (_, p) => .ok (s.setProcess p ((s.procs p).finishInvocation id returnCode result))
    | none => .ok s
  | .swapConfirmation c =>
    match s.registered c with
    | some (_, p) => s.swappedProcess (s.procs p).application (s.procs p).name
    | none => .ok s
  | .processClosure c =>
    match s.registered c with
    | some (conn, _) => .ok (s.handleClosure c conn)
    | none => .ok s
  | .disconnected c =>
    match s.conns c with
    | some conn => .ok (s.disconnected c conn)
    | none => .ok s

end State

end Praas.ControlPlane
