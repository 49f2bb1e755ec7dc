import Praas.Common.Application
import Praas.Process.Messages
import Praas.Process.Workers

/-! # The controller of a process

`praas::process::Controller`: the messages that arrive from the TCP server and
from the function workers, and the dispatch of invocations to idle workers. A
handler returns the new state and what it sends, to the workers and to the TCP
server.
-/

namespace Praas.Process

/-! ## What the controller receives and sends -/

/-- `Controller::ExternalMessage`. -/
structure ExternalMessage where
  sourceType : RemoteType
  source : Option Str
  msg : List Byte
  payload : Buffer

/-! `remote_message`, `dataplane_message` and `controlplane_message`: what the TCP
server queues for the poll loop. -/

def remoteMessage (msg : List Byte) (payload : Buffer) (processId : Str) : ExternalMessage :=
  ⟨.process, some processId, msg, payload⟩

def dataplaneMessage (msg : List Byte) (payload : Buffer) : ExternalMessage :=
  ⟨.dataPlane, none, msg, payload⟩

def controlplaneMessage (msg : List Byte) (payload : Buffer) : ExternalMessage :=
  ⟨.controlPlane, none, msg, payload⟩

/-- The source a reply to the message goes to. -/
def ExternalMessage.invocationSource (m : ExternalMessage) : InvocationSource :=
  match m.source with
  | some process => InvocationSource.fromProcess process
  | none => InvocationSource.fromSource m.sourceType

/-- A message on the queue to a worker. -/
inductive WorkerMessage where
  | getRequest (m : Ipc.GetRequest) (payload : Option Buffer)
  | invocationRequest (m : Ipc.InvocationRequest) (payload : List Buffer)
  | invocationResult (m : Ipc.InvocationResult) (payload : Buffer)
  | applicationUpdate (m : Ipc.ApplicationUpdate)
  | stateKeysResult (keys : List (Str × ℕ))
deriving DecidableEq, Repr

/-- A call into the TCP server. -/
inductive ServerCall where
  | invocationResult (source : RemoteType) (remoteProcess : Option Str) (invocationId : Str)
      (returnCode : Int) (payload : Buffer)
  | invocationRequest (remoteProcess functionName invocationId : Str) (payload : Buffer)
  | putMessage (remoteProcess name : Str) (payload : Buffer)
deriving DecidableEq, Repr

inductive Output where
  | toWorker (w : ℕ) (m : WorkerMessage)
  | server (c : ServerCall)
deriving DecidableEq, Repr

/-- What the system clock and the hash table decide for a message: the time a
state value is written at, and the place of a new entry of the multimap. -/
structure Env where
  now : ℕ := 0
  slot : ℕ := 0

structure Controller where
  processId : Str
  workers : Workers
  workQueue : WorkQueue
  mailbox : MessageStore Buffer
  pendingMsgs : PendingMessages
  application : Common.Application

def SELF_PROCESS : Str := str ['S', 'E', 'L', 'F']

namespace Controller

def new (processId : Str) (functionWorkers : ℕ) (functions : Str → Option Trigger) :
    Controller where
  processId := processId
  workers := Workers.new functionWorkers
  workQueue := WorkQueue.new functions
  mailbox := MessageStore.empty
  pendingMsgs := []
  application := {}

@[simps] def setPending (c : Controller) (msgs : PendingMessages) : Controller :=
  { c with pendingMsgs := msgs }

@[simps] def setMailbox (c : Controller) (mailbox : MessageStore Buffer) : Controller :=
  { c with mailbox := mailbox }

@[simps] def setQueue (c : Controller) (q : WorkQueue) : Controller :=
  { c with workQueue := q }

@[simps] def setWorkers (c : Controller) (ws : Workers) : Controller :=
  { c with workers := ws }

/-- The request is addressed to this process. -/
def IsSelf (c : Controller) (processId : Str) : Prop :=
  processId = SELF_PROCESS ∨ processId = c.processId

instance (c : Controller) (processId : Str) : Decidable (c.IsSelf processId) :=
  inferInstanceAs (Decidable (_ ∨ _))

/-- The process a GET names: `SELF` stands for this one. -/
def resolve (c : Controller) (processId : Str) : Str :=
  if processId = SELF_PROCESS then c.processId else processId

/-! ## Results of invocations -/

/-- Wake the workers that wait for an invocation with a result, or an error. -/
def wake (c : Controller) (invocationId : Str) (returnCode : Int) (payload : Buffer) :
    Except Fault (Controller × List Output) := do
  let found := c.pendingMsgs.findInvocation invocationId
  let result ← Ipc.InvocationResult.setInvocationId {} invocationId
  let result := { result with returnCode := returnCode, bufferLength := toInt32 payload.length }
  return (c.setPending found.2,
    found.1.map fun w => .toWorker w (.invocationResult result payload))

theorem wake_ok (c : Controller) (id : Ipc.Text Ipc.ID_LENGTH) (returnCode : Int)
    (payload : Buffer) :
    c.wake id.1 returnCode payload = .ok
      (c.setPending (c.pendingMsgs.findInvocation id.1).2,
        (c.pendingMsgs.findInvocation id.1).1.map fun w => .toWorker w (.invocationResult
          { invocationId := id, returnCode := returnCode, bufferLength := toInt32 payload.length }
          payload)) := by
  unfold wake
  rw [Ipc.InvocationResult.setInvocationId_text]
  rfl

/-- `_process_invocation_result` of a source: a remote one is answered by the TCP
server, otherwise the workers that wait for the id are woken. -/
def processInvocationResult (c : Controller) (source : InvocationSource) (invocationId : Str)
    (returnCode : Int) (payload : Buffer) : Except Fault (Controller × List Output) :=
  if source.isRemote then
    .ok (c, [.server (.invocationResult source.source source.remoteProcess invocationId
      returnCode payload)])
  else c.wake invocationId returnCode payload

/-- `_process_invocation_result` of a worker. -/
def processWorkerResult (c : Controller) (w : ℕ) (invocationId : Str) (returnCode : Int)
    (payload : Buffer) : Except Fault (Controller × List Output) :=
  let found := c.workQueue.finish invocationId
  match found.1 with
  | some i => do
    let r ← (c.setQueue found.2).processInvocationResult i.source invocationId returnCode payload
    return (r.1.setWorkers (r.1.workers.finish w), r.2)
  | none => .ok (c.setWorkers (c.workers.finish w), [])

/-- The end of both handlers of invocation requests: the payload is added to the
work queue, and a rejection is reported to the source of the request. -/
def submitPayload (c : Controller) (fname invocationId : Str) (payload : Buffer)
    (source : InvocationSource) : Except Fault (Controller × List Output) := do
  let r ← c.workQueue.addPayload fname invocationId payload source
  match r.2 with
  | some message =>
    (c.setQueue r.1).processInvocationResult source invocationId (-1) message
  | none => return (c.setQueue r.1, [])

/-! ## Messages of the mailbox -/

/-- The part that a PUT of a worker to its own process and a `PutMessage` of
another process share: the message goes to a worker that waits for it, or into
the mailbox, where it is dropped if the name is taken. -/
def deliver (c : Controller) (name source : Str) (payload : Buffer) :
    Except Fault (Controller × List Output) :=
  let found := c.pendingMsgs.findGet name source
  match found.1 with
  | some w => do
    let req ← Ipc.GetRequest.setProcessId {} source
    let req ← req.setName name
    return (c.setPending found.2, [.toWorker w (.getRequest req (some payload))])
  | none => .ok (c.setMailbox (c.mailbox.put name source payload).1, [])

/-- `_process_put`. -/
def processPut (c : Controller) (req : Ipc.GenericRequestParsed) (payload : Buffer) (env : Env) :
    Except Fault (Controller × List Output) :=
  if req.state then do
    let r ← c.mailbox.state req.name.1 payload env.now
    return (c.setMailbox r.1, [])
  else if c.IsSelf req.processId.1 then c.deliver req.name.1 c.processId payload
  else .ok (c, [.server (.putMessage req.processId.1 req.name.1 payload)])

/-- The handler of GET requests. -/
def processGet (c : Controller) (w : ℕ) (req : Ipc.GenericRequestParsed) (env : Env) :
    Except Fault (Controller × List Output) :=
  if req.state then do
    let reply ← Ipc.GetRequest.setName {} req.name.1
    let reply := { reply with state := true }
    return (c, [.toWorker w (.getRequest reply (c.mailbox.tryState req.name.1))])
  else
    let found := c.mailbox.tryGet req.name.1 (c.resolve req.processId.1)
    match found.2 with
    | some payload => do
      let reply ← Ipc.GetRequest.setProcessId {} req.processId.1
      let reply ← reply.setName req.name.1
      return (c.setMailbox found.1, [.toWorker w (.getRequest reply (some payload))])
    | none =>
      .ok (c.setPending
        (c.pendingMsgs.insertGet env.slot req.name.1 (c.resolve req.processId.1) w), [])

/-! ## Handlers -/

/-- `_process_invocation`: the worker is stored as waiting before the work queue
decides about its request. -/
def processInvocation (c : Controller) (w : ℕ) (req : Ipc.InvocationRequestParsed)
    (payload : Buffer) (env : Env) : Except Fault (Controller × List Output) :=
  let c := c.setPending (c.pendingMsgs.insertInvocation env.slot req.invocationId.1 w)
  if c.IsSelf req.processId.1 then
    c.submitPayload req.functionName.1 req.invocationId.1 payload InvocationSource.fromLocal
  else
    .ok (c, [.server (.invocationRequest req.processId.1 req.functionName.1 req.invocationId.1
      payload)])

/-- `_process_internal_message`. -/
def processInternalMessage (c : Controller) (w : ℕ) (msg : Ipc.MessageVariants)
    (payload : Buffer) (env : Env) : Except Fault (Controller × List Output) :=
  match msg with
  | .invocationResult req => c.processWorkerResult w req.invocationId.1 req.returnCode payload
  | .invocationRequest req => c.processInvocation w req payload env
  | .putRequest req => c.processPut req payload env
  | .stateKeysRequest => .ok (c, [.toWorker w (.stateKeysResult c.mailbox.stateKeys)])
  | .getRequest req => c.processGet w req env

/-- `_process_external_message`; messages of other types are only logged. -/
def processExternalMessage (c : Controller) (m : ExternalMessage) :
    Except Fault (Controller × List Output) := do
  match ← Message.MessageParser.parse m.msg with
  | .invocationRequest req =>
    c.submitPayload (Message.InvocationRequest.functionName req)
      (Message.InvocationRequest.invocationId req) m.payload m.invocationSource
  | .invocationResult req =>
    c.wake (Message.InvocationResult.invocationId req) (Message.InvocationResult.returnCode req)
      m.payload
  | .putMessage req =>
    c.deliver (Message.PutMessage.name req) (Message.PutMessage.processId req) m.payload
  | _ => return (c, [])

def updateMessage (u : Common.ApplicationUpdate) : Except Fault Ipc.ApplicationUpdate := do
  let msg ← Ipc.ApplicationUpdate.setProcessId {} u.processId
  return { msg with statusChange := u.status }

/-- `_process_application_updates`: each update is sent to every worker, then all
are applied. -/
def processApplicationUpdates (c : Controller) (updates : List Common.ApplicationUpdate) :
    Except Fault (Controller × List Output) := do
  let msgs ← updates.mapM updateMessage
  let application := updates.foldl (fun a u => a.update u.status u.processId) c.application
  return ({ c with application := application },
    msgs.flatMap fun msg => (List.range c.workers.busy.length).map fun w =>
      Output.toWorker w (.applicationUpdate msg))

/-- One round of the loop at the end of `poll`: if there is an idle worker and an
invocation that can run, it is submitted. -/
def schedule (c : Controller) : Except Fault (Controller × List Output) :=
  if c.workers.hasIdleWorkers then
    match c.workQueue.next with
    | (none, _) => .ok (c, [])
    | (some key, q) =>
      match q.activeInvocations key with
      | none => .error .nullPointer
      | some i => do
        let (ws, i, w) ← c.workers.submit i
        return ((c.setQueue (q.setInvocation key i)).setWorkers ws,
          [.toWorker w (.invocationRequest i.req i.payload)])
  else .ok (c, [])

/-- What the poll loop reacts to. -/
inductive Input where
  | external (m : ExternalMessage)
  | internal (w : ℕ) (msg : Ipc.MessageVariants) (payload : Buffer) (env : Env)
  | updates (updates : List Common.ApplicationUpdate)
  | schedule

def handle (c : Controller) : Input → Except Fault (Controller × List Output)
  | .external m => c.processExternalMessage m
  | .internal w msg payload env => c.processInternalMessage w msg payload env
  | .updates updates => c.processApplicationUpdates updates
  | .schedule => c.schedule

end Controller

end Praas.Process
