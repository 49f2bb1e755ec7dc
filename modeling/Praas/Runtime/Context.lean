import Praas.Process.Controller

/-! # The blocking calls of a function

`praas::process::runtime::Context`: the calls in which a function on a worker
sends a request to the controller and waits for a message, and what it checks of
the message it gets. The arguments fit the fields of the request.
-/

namespace Praas.Runtime

open Process (WorkerMessage Controller Output Env Buffer SELF_PROCESS ANY_PROCESS)
open Process.Ipc (Text NAME_LENGTH ID_LENGTH)

/-- A pointer to the data of a buffer; `none` is the null pointer. -/
abbrev Ptr := Option ℕ

/-- `Context::get`, `state` of a key, `state_keys` and `invoke`. -/
inductive Call where
  | get (source name : Text NAME_LENGTH)
  | state (name : Text NAME_LENGTH)
  | stateKeys
  | invoke (processId : Text ID_LENGTH) (functionName : Text NAME_LENGTH)
      (invocationId : Text ID_LENGTH) (input : Ptr)
deriving DecidableEq

/-- What a call raises. -/
inductive GetFailure where
  | incorrectMessage
  | incorrectProcess
  | incorrectName
  | incorrectInvocation
  | noBuffer
deriving DecidableEq, Repr

/-- The request, as the controller parses it. -/
def Call.request : Call → Process.Ipc.MessageVariants
  | .get source name => .getRequest ⟨source, name, false⟩
  | .state name => .getRequest ⟨default, name, true⟩
  | .stateKeys => .stateKeysRequest
  | .invoke processId functionName invocationId _ =>
    .invocationRequest ⟨processId, invocationId, functionName⟩

/-- How often the request is sent: `invoke` sends it for every buffer of the user
whose pointer is that of the input. -/
def Call.copies (userBuffers : List Ptr) : Call → ℕ
  | .invoke _ _ _ input => userBuffers.count input
  | _ => 1

/-- `Invoker::get<MsgType>` and the checks after it. -/
def Call.accept : Call → WorkerMessage → Except GetFailure WorkerMessage
  | .get source name, .getRequest m payload =>
    if source.1 ≠ SELF_PROCESS ∧ source.1 ≠ ANY_PROCESS ∧ source ≠ m.processId then
      .error .incorrectProcess
    else if name ≠ m.name then .error .incorrectName
    else .ok (.getRequest m payload)
  | .state name, .getRequest m payload =>
    if name ≠ m.name then .error .incorrectName else .ok (.getRequest m payload)
  | .stateKeys, .stateKeysResult keys => .ok (.stateKeysResult keys)
  | .invoke _ _ invocationId _, .invocationResult m payload =>
    if invocationId ≠ m.invocationId then .error .incorrectInvocation
    else .ok (.invocationResult m payload)
  | _, _ => .error .incorrectMessage

/-- The buffers of the user after a call has returned; `fresh` is where a payload
was received. An empty payload has no data. -/
def Call.keep (userBuffers : List Ptr) (fresh : ℕ) : Call → WorkerMessage → List Ptr
  | .get _ _, .getRequest _ payload =>
    userBuffers ++ [if (payload.getD []).isEmpty then none else some fresh]
  | .state _, .getRequest _ payload =>
    if (payload.getD []).isEmpty then userBuffers else userBuffers ++ [some fresh]
  | .invoke _ _ _ _, .invocationResult _ payload =>
    userBuffers ++ [if payload.isEmpty then none else some fresh]
  | _, _ => userBuffers

/-! ## The replies of the controller -/

/-- What a reply says: the process a message comes from, the return code of an
invocation, the payload, the list of state keys. -/
structure Content where
  sender : Text NAME_LENGTH := default
  returnCode : Int := 0
  payload : Option Buffer := none
  keys : List (Str × ℕ) := []
deriving DecidableEq

/-- The reply to a call. A message that was asked for by the name of its process
names that process. -/
def Call.answer (c : Call) (r : Content) : WorkerMessage :=
  match c with
  | .get source name =>
    .getRequest ⟨if source.1 = SELF_PROCESS ∨ source.1 = ANY_PROCESS then r.sender else source,
      name, false⟩ r.payload
  | .state name => .getRequest ⟨default, name, true⟩ r.payload
  | .stateKeys => .stateKeysResult r.keys
  | .invoke _ _ invocationId _ =>
    .invocationResult ⟨invocationId, r.returnCode, Praas.toInt32 (r.payload.getD []).length⟩
      (r.payload.getD [])

/-- The reply to a call passes its checks. -/
theorem accept_answer (c : Call) (r : Content) : c.accept (c.answer r) = .ok (c.answer r) := by
  cases c with
  | get source name =>
    by_cases hself : source.1 = SELF_PROCESS ∨ source.1 = ANY_PROCESS
    · have hskip : ¬ (source.1 ≠ SELF_PROCESS ∧ source.1 ≠ ANY_PROCESS ∧ source ≠ r.sender) := by
        tauto
      simp [Call.answer, Call.accept, hself, hskip]
    · simp [Call.answer, Call.accept, hself]
  | state name => simp [Call.answer, Call.accept]
  | stateKeys => rfl
  | invoke processId functionName invocationId input => simp [Call.answer, Call.accept]

section Controller

variable (c : Controller) (w : ℕ) (payload : Buffer) (env : Env)

theorem handle_state (name : Text NAME_LENGTH) :
    c.handle (.internal w (Call.state name).request payload env) =
      .ok (c, [.toWorker w ((Call.state name).answer
        { payload := c.mailbox.tryState name.1 })]) := by
  show c.processGet w ⟨default, name, true⟩ env = _
  unfold Controller.processGet
  rw [if_pos rfl, Process.Ipc.GetRequest.setName_text]
  rfl

theorem handle_stateKeys :
    c.handle (.internal w Call.stateKeys.request payload env) =
      .ok (c, [.toWorker w (Call.stateKeys.answer { keys := c.mailbox.stateKeys })]) :=
  rfl

/-- A GET whose message is there is answered at once. -/
theorem handle_get {source name : Text NAME_LENGTH} {data : Buffer}
    (found : (c.mailbox.tryGet name.1 (c.resolve source.1)).2 = some data) :
    c.handle (.internal w (Call.get source name).request payload env) =
      .ok (c.setMailbox (c.mailbox.tryGet name.1 (c.resolve source.1)).1,
        [.toWorker w ((Call.get source name).answer
          { sender := source, payload := some data })]) := by
  show c.processGet w ⟨source, name, false⟩ env = _
  unfold Controller.processGet
  rw [if_neg (by simp)]
  simp only [found, Process.Ipc.GetRequest.setProcessId_text, Process.Ipc.GetRequest.setName_text]
  have hsender : (if source.1 = SELF_PROCESS ∨ source.1 = ANY_PROCESS then source else source) =
      source := ite_self source
  simp only [Call.answer, hsender]
  rfl

/-- A GET that waits is answered by the message that it matches. -/
theorem deliver_get {source name sender : Text NAME_LENGTH}
    (found : (c.pendingMsgs.findGet name.1 sender.1).1 = some w)
    (fits : c.resolve source.1 = ANY_PROCESS ∨ c.resolve source.1 = sender.1) :
    c.deliver name.1 sender.1 payload =
      .ok (c.setPending (c.pendingMsgs.findGet name.1 sender.1).2,
        [.toWorker w ((Call.get source name).answer
          { sender := sender, payload := some payload })]) := by
  have hsender : (if source.1 = SELF_PROCESS ∨ source.1 = ANY_PROCESS then sender else source) =
      sender := by
    by_cases hself : source.1 = SELF_PROCESS ∨ source.1 = ANY_PROCESS
    · rw [if_pos hself]
    · rw [if_neg hself]
      -- a GET of another process resolves to its name
      have hname : c.resolve source.1 = source.1 := if_neg fun h => hself (Or.inl h)
      rcases fits with hany | hsame
      · exact absurd (Or.inr (hname ▸ hany)) hself
      · exact Subtype.ext (hname ▸ hsame)
  unfold Controller.deliver
  simp only [found, Process.Ipc.GetRequest.setProcessId_text, Process.Ipc.GetRequest.setName_text,
    Call.answer, hsender]
  rfl

/-- The result of an invocation is the reply to each call that waits for its id. -/
theorem wake_invoke (processId invocationId : Text ID_LENGTH) (functionName : Text NAME_LENGTH)
    (input : Ptr) (returnCode : Int) :
    c.wake invocationId.1 returnCode payload =
      .ok (c.setPending (c.pendingMsgs.findInvocation invocationId.1).2,
        (c.pendingMsgs.findInvocation invocationId.1).1.map fun v => .toWorker v
          ((Call.invoke processId functionName invocationId input).answer
            { returnCode := returnCode, payload := some payload })) :=
  c.wake_ok invocationId returnCode payload

end Controller

end Praas.Runtime
