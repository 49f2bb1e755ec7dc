import Praas.Common.Messages

/-! # The TCP server of the process controller

`praas::process::remote`: the `Connection` objects, the table that names them,
and the callbacks that read from and write to the TCP connections.

A `Connection` is shared by the name table, the contexts of TCP connections and
the data-plane and control-plane pointers, so it lives in a heap and the others
hold references to it. What the server sends and the calls it makes into the
controller are recorded with the TCP connection they belong to.
-/

namespace Praas.Process

/-- `remote::RemoteType`. -/
inductive RemoteType where
  | dataPlane | controlPlane | process | localFunction
deriving DecidableEq, Repr

namespace Remote

open Message

/-! ## The state -/

/-- `Connection::Status`. -/
inductive Status where
  | disconnected | connecting | connected
deriving DecidableEq, Repr

/-- A `trantor::TcpConnectionPtr`. -/
abbrev TcpId := ℕ

/-- A `std::shared_ptr<Connection>`. -/
abbrev Ref := ℕ

/-- A `trantor::TcpClient`, by the connection callback it was given: that of
`poll` or that of `_connect`. -/
inductive Client where
  | poll | connect
deriving DecidableEq, Repr

structure Connection where
  status : Status := .disconnected
  type : RemoteType
  id : Option Str
  conn : Option TcpId := none
  ipAddress : Str := []
  port : Int := 0
  curMsg : List Byte := []
  parsedMsg : MessageVariants := .monostate
  bytesToRead : ℕ := 0
  client : Option Client := none
  pendingMsgs : List (List Byte × List Byte) := []
deriving DecidableEq, Repr

namespace Connection

@[simps] def setBytesToRead (c : Connection) (n : ℕ) : Connection :=
  { c with bytesToRead := n }

@[simps] def setMsg (c : Connection) (hd : List Byte) (parsed : MessageVariants) : Connection :=
  { c with curMsg := hd, parsedMsg := parsed }

@[simps] def setAddress (c : Connection) (ipAddress : Str) (port : Int) : Connection :=
  { c with ipAddress := ipAddress, port := port }

/-- The peer can be reached on `t`. -/
@[simps] def setConnected (c : Connection) (t : TcpId) : Connection :=
  { c with conn := some t, status := .connected }

@[simps] def setStatus (c : Connection) (status : Status) : Connection :=
  { c with status := status }

@[simps] def setClient (c : Connection) (client : Client) : Connection :=
  { c with client := some client }

@[simps] def setPending (c : Connection) (msgs : List (List Byte × List Byte)) : Connection :=
  { c with pendingMsgs := msgs }

end Connection

/-- What the server hands to the controller. -/
inductive Call where
  | remoteMessage (msg payload : List Byte) (processId : Str)
  | dataplaneMessage (msg payload : List Byte)
  | controlplaneMessage (msg payload : List Byte)
  | updateApplication (status : Int) (process : Str)
deriving DecidableEq, Repr

/-- How a TCP connection came about: a peer connected to the server, or the
client of a `Connection` reached its peer. -/
inductive Origin where
  | accepted
  | client (r : Ref)
deriving DecidableEq, Repr

/-- A TCP connection: its origin once it is open, its context, and the bytes
received but not retrieved. -/
structure Tcp where
  origin : Option Origin := none
  context : Option Ref := none
  buffer : List Byte := []
deriving DecidableEq, Repr

structure TCPServer where
  /-- `_controller.process_id()`. -/
  processId : Str
  heap : Ref → Connection
  next : Ref
  connectionData : Str → Option Ref
  dataPlane : Option Ref
  controlPlane : Option Ref
  tcp : TcpId → Tcp
  calls : List (TcpId × Call)
  sent : List (TcpId × List Byte)

def DATAPLANE_ID : Str :=
  str ['D', 'A', 'T', 'A', '_', 'P', 'L', 'A', 'N', 'E']

def CONTROLPLANE_ID : Str :=
  str ['C', 'O', 'N', 'T', 'R', 'O', 'L', '_', 'P', 'L', 'A', 'N', 'E']

/-- The key under which `poll` stores the connection to the control plane. -/
def CONTROLPLANE_KEY : Str :=
  str ['C', 'O', 'N', 'T', 'R', 'O', 'L', 'P', 'L', 'A', 'N', 'E']

/-- The name a registration is confirmed with. -/
def CORRECT : Str := str ['C', 'O', 'R', 'R', 'E', 'C', 'T']

namespace TCPServer

/-- The server of a fresh controller. -/
def new (processId : Str) : TCPServer where
  processId := processId
  heap := fun _ => { type := .process, id := none }
  next := 0
  connectionData := fun _ => none
  dataPlane := none
  controlPlane := none
  tcp := fun _ => {}
  calls := []
  sent := []

/-- Write through a `Connection` pointer. -/
@[simps] def setConn (s : TCPServer) (r : Ref) (c : Connection) : TCPServer :=
  { s with heap := Function.update s.heap r c }

/-- `std::make_shared<Connection>(...)`, owned by the name table. -/
@[simps] def emplace (s : TCPServer) (name : Str) (c : Connection) : TCPServer :=
  { s with
    heap := Function.update s.heap s.next c
    next := s.next + 1
    connectionData := Function.update s.connectionData name (some s.next) }

/-- `connectionPtr->setContext(...)`. -/
@[simps] def setContext (s : TCPServer) (t : TcpId) (r : Ref) : TCPServer :=
  { s with tcp := Function.update s.tcp t { s.tcp t with context := some r } }

/-- A TCP connection is established. -/
@[simps] def openTcp (s : TCPServer) (t : TcpId) (o : Origin) : TCPServer :=
  { s with tcp := Function.update s.tcp t { s.tcp t with origin := some o } }

/-- `buffer->retrieve(n)`. -/
@[simps] def retrieve (s : TCPServer) (t : TcpId) (n : ℕ) : TCPServer :=
  { s with tcp := Function.update s.tcp t { s.tcp t with buffer := (s.tcp t).buffer.drop n } }

/-- Bytes arrive on a TCP connection. -/
@[simps] def append (s : TCPServer) (t : TcpId) (bs : List Byte) : TCPServer :=
  { s with tcp := Function.update s.tcp t { s.tcp t with buffer := (s.tcp t).buffer ++ bs } }

/-- `connectionPtr->send(...)`. -/
@[simps] def send (s : TCPServer) (t : TcpId) (bs : List Byte) : TCPServer :=
  { s with sent := s.sent ++ [(t, bs)] }

/-- A call into the controller, made for bytes received on `t`. -/
@[simps] def toController (s : TCPServer) (t : TcpId) (c : Call) : TCPServer :=
  { s with calls := s.calls ++ [(t, c)] }

/-- A field that is not written is the same on all TCP connections. -/
theorem tcp_field {γ : Type} (field : Tcp → γ) {s s' : TCPServer} {t : TcpId} {c : Tcp}
    (hs : s'.tcp = Function.update s.tcp t c) (hc : field c = field (s.tcp t)) (t' : TcpId) :
    field (s'.tcp t') = field (s.tcp t') := by
  rw [hs]
  rcases eq_or_ne t' t with rfl | ht
  · rw [Function.update_self, hc]
  · rw [Function.update_of_ne ht]

/-! ## Handlers of the message types -/

/-- `Connection::id.value()`. -/
def idValue (c : Connection) : Except Fault Str :=
  match c.id with
  | some id => .ok id
  | none => .error .badOptionalAccess

/-- The first part of the three payload handlers: a fresh message leaves its
header in the buffer and sets `bytes_to_read` to the length it declares. -/
def startPayload (s : TCPServer) (t : TcpId) (r : Ref) (len : ℕ) : TCPServer :=
  if (s.heap r).bytesToRead = 0 then
    (s.setConn r ((s.heap r).setBytesToRead len)).retrieve t BUF_SIZE
  else s

/-- Their second part: once `n` bytes are there, they go to the controller with
the header. The result says whether the message was consumed. -/
def finishPayload (s : TCPServer) (t : TcpId) (r : Ref) (n : ℕ)
    (deliver : Connection → List Byte → Except Fault Call) : Except Fault (TCPServer × Bool) :=
  if n ≤ (s.tcp t).buffer.length then
    match deliver (s.heap r) ((s.tcp t).buffer.take n) with
    | .error x => .error x
    | .ok c => .ok (((s.retrieve t n).toController t c).setConn r ((s.heap r).setBytesToRead 0), true)
  else
    -- not enough payload, not consumed
    .ok (s, false)

/-- Whom an invocation request goes to depends on the type of the connection. -/
def deliverRequest (c : Connection) (payload : List Byte) : Except Fault Call :=
  match c.type with
  | .dataPlane => .ok (.dataplaneMessage c.curMsg payload)
  | .controlPlane => .ok (.controlplaneMessage c.curMsg payload)
  | _ =>
    match idValue c with
    | .ok id => .ok (.remoteMessage c.curMsg payload id)
    | .error x => .error x

/-- Results and PUTs go to `remote_message` whatever the connection is. -/
def deliverRemote (c : Connection) (payload : List Byte) : Except Fault Call :=
  match idValue c with
  | .ok id => .ok (.remoteMessage c.curMsg payload id)
  | .error x => .error x

/-- `_handle_invocation` compares with the size in the message. -/
def handleInvocation (s : TCPServer) (t : TcpId) (r : Ref) (msg : MessagePtr) :
    Except Fault (TCPServer × Bool) :=
  let s := s.startPayload t r (sizeT (InvocationRequest.payloadSize msg))
  s.finishPayload t r (sizeT (InvocationRequest.payloadSize msg)) deliverRequest

/-- `_handle_invocation_result` compares with `bytes_to_read`. -/
def handleInvocationResult (s : TCPServer) (t : TcpId) (r : Ref) (msg : MessagePtr) :
    Except Fault (TCPServer × Bool) :=
  let s := s.startPayload t r (sizeT (totalLength msg))
  s.finishPayload t r (s.heap r).bytesToRead deliverRemote

/-- `_handle_put_message` compares with `bytes_to_read`. -/
def handlePutMessage (s : TCPServer) (t : TcpId) (r : Ref) (msg : MessagePtr) :
    Except Fault (TCPServer × Bool) :=
  let s := s.startPayload t r (sizeT (totalLength msg))
  s.finishPayload t r (s.heap r).bytesToRead deliverRemote

/-- `_handle_app_update`: the controller is told, and the address of the process
is stored for a later `_connect`. -/
def handleAppUpdate (s : TCPServer) (t : TcpId) (msg : MessagePtr) : TCPServer :=
  let processId := ApplicationUpdate.processId msg
  let s := s.toController t (.updateApplication (ApplicationUpdate.statusChange msg) processId)
  match s.connectionData processId with
  | some r =>
    s.setConn r
      ((s.heap r).setAddress (ApplicationUpdate.ipAddress msg) (ApplicationUpdate.port msg))
  | none =>
    s.emplace processId
      { status := .disconnected
        type := .process
        id := some processId
        ipAddress := ApplicationUpdate.ipAddress msg
        port := ApplicationUpdate.port msg }

/-- The data-plane and control-plane pointers follow the name of a registration. -/
def setPlane (s : TCPServer) (name : Str) (r : Ref) : TCPServer :=
  if name = DATAPLANE_ID then { s with dataPlane := some r }
  else if name = CONTROLPLANE_ID then { s with controlPlane := some r }
  else s

@[simp] theorem setPlane_heap (s : TCPServer) (name : Str) (r : Ref) :
    (s.setPlane name r).heap = s.heap := by
  unfold setPlane
  split <;> [rfl; split <;> rfl]

@[simp] theorem setPlane_connectionData (s : TCPServer) (name : Str) (r : Ref) :
    (s.setPlane name r).connectionData = s.connectionData := by
  unfold setPlane
  split <;> [rfl; split <;> rfl]

@[simp] theorem setPlane_tcp (s : TCPServer) (name : Str) (r : Ref) :
    (s.setPlane name r).tcp = s.tcp := by
  unfold setPlane
  split <;> [rfl; split <;> rfl]

@[simp] theorem setPlane_sent (s : TCPServer) (name : Str) (r : Ref) :
    (s.setPlane name r).sent = s.sent := by
  unfold setPlane
  split <;> [rfl; split <;> rfl]

/-- The `Connection` made for the registration of a new name. -/
def registered (name : Str) (t : TcpId) : Connection :=
  if name = DATAPLANE_ID then
    { status := .connected, type := .dataPlane, id := none, conn := some t }
  else if name = CONTROLPLANE_ID then
    { status := .connected, type := .controlPlane, id := none, conn := some t }
  else { status := .connected, type := .process, id := some name, conn := some t }

/-- `_handle_connection`: registration of the peer on `t`. -/
def handleConnection (s : TCPServer) (t : TcpId) (msg : MessagePtr) : Except Fault TCPServer :=
  let name := ProcessConnection.processName msg
  let s :=
    match s.connectionData name with
    | some r =>
      ((s.setConn r ((s.heap r).setConnected t)).setPlane name r).setContext t r
    | none =>
      let r := s.next
      ((s.emplace name (registered name t)).setPlane name r).setContext t r
  match ProcessConnection.setProcessName (.new .processConnection) (.ofStr CORRECT) with
  | .error x => .error x
  | .ok req => .ok (s.send t req.buf)

/-! ## The message callback -/

/-- The visit of the resumed branch: the header was parsed in an earlier call. -/
def resume (s : TCPServer) (t : TcpId) (r : Ref) : Except Fault (TCPServer × Bool) :=
  match (s.heap r).parsedMsg with
  | .invocationRequest m => s.handleInvocation t r m
  | .putMessage m => s.handlePutMessage t r m
  | .invocationResult m => s.handleInvocationResult t r m
  | _ => .ok (s, false)

/-- The visit of the fresh branch. -/
def dispatch (s : TCPServer) (t : TcpId) (r : Ref) : Except Fault (TCPServer × Bool) :=
  match (s.heap r).parsedMsg with
  | .invocationRequest m => s.handleInvocation t r m
  | .invocationResult m => s.handleInvocationResult t r m
  | .putMessage m => s.handlePutMessage t r m
  | .processConnection _ => .ok (s.retrieve t BUF_SIZE, true)
  | .applicationUpdate m => .ok ((s.handleAppUpdate t m).retrieve t BUF_SIZE, true)
  -- unsupported message type
  | _ => .ok (s.retrieve t BUF_SIZE, true)

/-- One pass of `_handle_message` without the recursive call at its end; the
result says whether that call is made. -/
def handleOnce (s : TCPServer) (t : TcpId) : Except Fault (TCPServer × Bool) :=
  match (s.tcp t).context with
  | none =>
    -- registration of the connection
    if (s.tcp t).buffer.length < BUF_SIZE then .ok (s, false)
    else
      match MessageParser.parse ((s.tcp t).buffer.take BUF_SIZE) with
      | .error x => .error x
      | .ok (.processConnection m) =>
        match s.handleConnection t m with
        | .error x => .error x
        | .ok s =>
          let s := s.retrieve t BUF_SIZE
          .ok (s, decide (0 < (s.tcp t).buffer.length))
      | .ok _ =>
        -- a message from an unknown recipient is ignored
        let s := s.retrieve t BUF_SIZE
        .ok (s, decide (0 < (s.tcp t).buffer.length))
  | some r =>
    if 0 < (s.heap r).bytesToRead then
      if (s.tcp t).buffer.length < (s.heap r).bytesToRead then .ok (s, false)
      else
        -- the result of the visit is dropped: `consumed` stays false
        (s.resume t r).map fun q => (q.1, false)
    else if (s.tcp t).buffer.length < BUF_SIZE then .ok (s, false)
    else
      let hd := (s.tcp t).buffer.take BUF_SIZE
      match MessageParser.parse hd with
      | .error x => .error x
      | .ok parsed =>
        ((s.setConn r ((s.heap r).setMsg hd parsed)).dispatch t r).map fun q =>
          (q.1, q.2 && decide (0 < (q.1.tcp t).buffer.length))

/-- `_handle_message` with a bound on the depth of its recursion. -/
def handleLoop : ℕ → TCPServer → TcpId → Except Fault TCPServer
  | 0, s, _ => .ok s
  | n + 1, s, t =>
    match s.handleOnce t with
    | .error x => .error x
    | .ok (s', false) => .ok s'
    | .ok (s', true) => handleLoop n s' t

/-- `_handle_message`. Every recursive call finds a shorter buffer, so the bound
is never reached. -/
def handleMessage (s : TCPServer) (t : TcpId) : Except Fault TCPServer :=
  handleLoop ((s.tcp t).buffer.length + 1) s t

/-- A chunk arrives on `t`, followed by one call of the message callback. -/
def receive (s : TCPServer) (t : TcpId) (chunk : List Byte) : Except Fault TCPServer :=
  (s.append t chunk).handleMessage t

/-! ## What the controller asks the server to send -/

/-- The connection that a result for the given source goes to. -/
def resultConnection (s : TCPServer) (source : RemoteType) (remoteProcess : Option Str) :
    Option Ref :=
  match source with
  | .dataPlane => s.dataPlane
  | .controlPlane => s.controlPlane
  | _ => remoteProcess.bind s.connectionData

/-- The header of an invocation result. -/
def resultHeader (invocationId : StringView) (returnCode : Int) (payload : List Byte) :
    Except Fault MessageData := do
  let req ← InvocationResult.setInvocationId (.new .invocationResult) invocationId
  let req := InvocationResult.setReturnCode req returnCode
  return req.setTotalLength (toInt32 payload.length)

def invocationResult (s : TCPServer) (source : RemoteType) (remoteProcess : Option Str)
    (invocationId : StringView) (returnCode : Int) (payload : List Byte) :
    Except Fault TCPServer :=
  match s.resultConnection source remoteProcess with
  | none => .ok s
  | some r => do
    let req ← resultHeader invocationId returnCode payload
    match (s.heap r).conn with
    | none => .error .nullPointer
    | some t =>
      let s := s.send t req.buf
      return if 0 < payload.length then s.send t payload else s

/-- `_connect`: the client is set up; its callback runs once the peer is reached. -/
def connect (s : TCPServer) (r : Ref) : TCPServer :=
  s.setConn r (((s.heap r).setStatus .connecting).setClient .connect)

/-- The part `put_message` and `invocation_request` share: with a connection the
message is sent, without one it is stored and the first one opens a connection. -/
def sendOrStore (s : TCPServer) (r : Ref) (req : MessageData) (payload : List Byte) : TCPServer :=
  match (s.heap r).conn with
  | none =>
    let pending := (s.heap r).pendingMsgs ++ [(req.buf, payload)]
    let s := s.setConn r ((s.heap r).setPending pending)
    if (s.heap r).status = .disconnected then s.connect r else s
  | some t => (s.send t req.buf).send t payload

def putMessage (s : TCPServer) (processId : Str) (name : StringView) (payload : List Byte) :
    Except Fault TCPServer :=
  match s.connectionData processId with
  | none => .ok s
  | some r => do
    let req ← PutMessage.setName (.new .putMessage) name
    let req ← PutMessage.setProcessId req (.ofStr s.processId)
    return s.sendOrStore r (req.setTotalLength (toInt32 payload.length)) payload

def invocationRequest (s : TCPServer) (processId : Str) (functionName invocationId : StringView)
    (payload : List Byte) : Except Fault TCPServer :=
  match s.connectionData processId with
  | none => .ok s
  | some r => do
    let req ← InvocationRequest.setInvocationId (.new .invocationRequest) invocationId
    let req ← InvocationRequest.setFunctionName req functionName
    let req ← InvocationRequest.setPayloadSize req (toInt32 payload.length)
    return s.sendOrStore r (req.setTotalLength (toInt32 payload.length)) payload

/-! ## Connections the server opens itself -/

/-- `poll`, up to the wait for the connection to the control plane. -/
def poll (s : TCPServer) : Except Fault TCPServer :=
  let c : Connection :=
    { status := .connecting, type := .controlPlane, id := none, client := some .poll }
  match s.connectionData CONTROLPLANE_KEY with
  | some _ => .error .assertion
  | none => .ok { s.emplace CONTROLPLANE_KEY c with controlPlane := some s.next }

/-- The messages stored for a peer are sent in order, empty payloads left out. -/
def sendPending (s : TCPServer) (t : TcpId) (msgs : List (List Byte × List Byte)) : TCPServer :=
  msgs.foldl (fun s m =>
    let s := s.send t m.1
    if 0 < m.2.length then s.send t m.2 else s) s

/-- The connection callback of the client of `r`, when it has connected as `t`. -/
def connected (s : TCPServer) (r : Ref) (t : TcpId) : Except Fault TCPServer :=
  match (s.heap r).client with
  | none => .ok s
  | some .poll => do
    let req ← ProcessConnection.setProcessName (.new .processConnection) (.ofStr s.processId)
    let s := ((s.openTcp t (.client r)).send t req.buf).setContext t r
    return s.setConn r { s.heap r with conn := some t }
  | some .connect => do
    let req ← ProcessConnection.setProcessName (.new .processConnection) (.ofStr s.processId)
    let s := (s.openTcp t (.client r)).send t req.buf
    let s := s.setConn r ((s.heap r).setConnected t)
    let s := s.sendPending t (s.heap r).pendingMsgs
    return s.setConn r ((s.heap r).setPending [])

/-- The same callback, when the connection is lost. -/
def disconnected (s : TCPServer) (r : Ref) : TCPServer :=
  match (s.heap r).client with
  | none => s
  | some .poll => { s with controlPlane := none }
  | some .connect => s.setConn r ((s.heap r).setStatus .disconnected)

/-! ## Runs -/

/-- What can happen at the server. -/
inductive Event where
  | poll
  | accept (t : TcpId)
  | receive (t : TcpId) (chunk : List Byte)
  | connected (r : Ref) (t : TcpId)
  | disconnected (r : Ref)
  | invocationResult (source : RemoteType) (remoteProcess : Option Str)
      (invocationId : StringView) (returnCode : Int) (payload : List Byte)
  | putMessage (processId : Str) (name : StringView) (payload : List Byte)
  | invocationRequest (processId : Str) (functionName invocationId : StringView)
      (payload : List Byte)

def step (s : TCPServer) : Event → Except Fault TCPServer
  | .poll => s.poll
  | .accept t => .ok (s.openTcp t .accepted)
  | .receive t chunk => s.receive t chunk
  | .connected r t => s.connected r t
  | .disconnected r => .ok (s.disconnected r)
  | .invocationResult source remoteProcess invocationId returnCode payload =>
    s.invocationResult source remoteProcess invocationId returnCode payload
  | .putMessage processId name payload => s.putMessage processId name payload
  | .invocationRequest processId functionName invocationId payload =>
    s.invocationRequest processId functionName invocationId payload

end TCPServer

end Remote

end Praas.Process
