import Praas.Lib.Lists
import Praas.Lib.Lts
import Praas.Process.Ipc
import Praas.Process.Remote

/-! # The work queue and the function workers

`praas::process`: invocations that wait for a worker or run on one, with the
payloads collected for them, and the pool of workers they are submitted to.

The queue of pending invocations holds pointers into the map of all invocations,
which never moves its elements: a pointer is modelled by its key.
-/

namespace Praas.Process

/-- `runtime::internal::Buffer<char>`: its bytes. -/
abbrev Buffer := List Byte

/-! ## Invocations -/

structure InvocationSource where
  source : RemoteType
  remoteProcess : Option Str
deriving DecidableEq, Repr

namespace InvocationSource

def fromProcess (remoteProcess : Str) : InvocationSource := ⟨.process, some remoteProcess⟩

def fromLocal : InvocationSource := ⟨.localFunction, none⟩

def fromSource (source : RemoteType) : InvocationSource := ⟨source, none⟩

def isRemote (s : InvocationSource) : Bool :=
  s.source = .dataPlane ∨ s.source = .process ∨ s.source = .controlPlane

end InvocationSource

/-- `runtime::internal::Trigger`. -/
inductive Trigger where
  | direct
deriving DecidableEq, Repr

/-- `TriggerChecker`: a direct trigger has no dependencies and is always ready. -/
def Trigger.ready : Trigger → Bool
  | .direct => true

structure Invocation where
  req : Ipc.InvocationRequest
  payload : List Buffer
  trigger : Trigger
  active : Bool
  source : InvocationSource
deriving DecidableEq, Repr

/-- The constructor: the setters of the header refuse what does not fit. -/
def Invocation.new (fname key : Str) (trigger : Trigger) (source : InvocationSource) :
    Except Fault Invocation := do
  let req ← Ipc.InvocationRequest.setFunctionName {} fname
  let req ← req.setInvocationId key
  return { req := req, payload := [], trigger := trigger, active := false, source := source }

theorem Invocation.new_ok (fname : Ipc.Text Ipc.NAME_LENGTH) (key : Ipc.Text Ipc.ID_LENGTH)
    (trigger : Trigger) (source : InvocationSource) :
    Invocation.new fname.1 key.1 trigger source =
      .ok { req := { invocationId := key, functionName := fname }, payload := [],
            trigger := trigger, active := false, source := source } := by
  unfold Invocation.new
  rw [Ipc.InvocationRequest.setFunctionName_text]
  show (Ipc.InvocationRequest.setInvocationId _ key.1 >>= _) = _
  rw [Ipc.InvocationRequest.setInvocationId_text]
  rfl

/-- `payload.push_back(...)`. -/
@[simps] def Invocation.push (i : Invocation) (buffer : Buffer) : Invocation :=
  { i with payload := i.payload ++ [buffer] }

/-! ## WorkQueue -/

structure WorkQueue where
  pendingInvocations : List Str
  activeInvocations : Str → Option Invocation
  functions : Str → Option Trigger

namespace WorkQueue

/-- The queue of a fresh controller. -/
def new (functions : Str → Option Trigger) : WorkQueue where
  pendingInvocations := []
  activeInvocations := fun _ => none
  functions := functions

/-- Write an element of the map of invocations. -/
@[simps] def setInvocation (q : WorkQueue) (key : Str) (i : Invocation) : WorkQueue :=
  { q with activeInvocations := Function.update q.activeInvocations key (some i) }

/-- Insert an invocation and queue it. -/
@[simps] def enqueue (q : WorkQueue) (key : Str) (i : Invocation) : WorkQueue :=
  { q with
    pendingInvocations := q.pendingInvocations ++ [key]
    activeInvocations := Function.update q.activeInvocations key (some i) }

/-- Why a payload was not added. -/
def unknownFunction (fname : Str) : Str :=
  str "Ignoring invocation of an unknown function ".toList ++ fname

def failedInsert (fname key : Str) : Str :=
  str "Failed to insert a new invocation ".toList ++ key ++ str " for function ".toList ++ fname

/-- The second branch of `add_payload`: a new invocation, whose insertion fails if
the key exists. -/
def create (q : WorkQueue) (fname key : Str) (buffer : Buffer) (source : InvocationSource) :
    Except Fault (WorkQueue × Option Str) :=
  match q.functions fname with
  | none => .ok (q, some (unknownFunction fname))
  | some trigger => do
    let i ← Invocation.new fname key trigger source
    if (q.activeInvocations key).isSome then return (q, some (failedInsert fname key))
    else return (q.enqueue key (i.push buffer), none)

/-- `add_payload`: extend the pending invocation of the key, or create one. The
source of an invocation is the one it was created with. -/
def addPayload (q : WorkQueue) (fname key : Str) (buffer : Buffer) (source : InvocationSource) :
    Except Fault (WorkQueue × Option Str) :=
  match q.activeInvocations key with
  | some i =>
    if i.active then q.create fname key buffer source
    else .ok (q.setInvocation key (i.push buffer), none)
  | none => q.create fname key buffer source

/-- What `add_payload` does with a key and a function name that fit the header. -/
inductive AddOutcome (q : WorkQueue) (fname : Ipc.Text Ipc.NAME_LENGTH)
    (key : Ipc.Text Ipc.ID_LENGTH) (buffer : Buffer) (source : InvocationSource) :
    WorkQueue × Option Str → Prop
  | merged (i : Invocation) (found : q.activeInvocations key.1 = some i)
      (waits : i.active = false) :
      AddOutcome q fname key buffer source (q.setInvocation key.1 (i.push buffer), none)
  | created (trigger : Trigger) (free : q.activeInvocations key.1 = none)
      (known : q.functions fname.1 = some trigger) :
      AddOutcome q fname key buffer source
        (q.enqueue key.1
          { req := { invocationId := key, functionName := fname }, payload := [buffer],
            trigger := trigger, active := false, source := source }, none)
  | rejected (message : Str) (refused : q.activeInvocations key.1 = none ∨
      ∃ i, q.activeInvocations key.1 = some i ∧ i.active = true) :
      AddOutcome q fname key buffer source (q, some message)

theorem addPayload_outcome (q : WorkQueue) (fname : Ipc.Text Ipc.NAME_LENGTH)
    (key : Ipc.Text Ipc.ID_LENGTH) (buffer : Buffer) (source : InvocationSource) :
    ∃ r, q.addPayload fname.1 key.1 buffer source = .ok r ∧
      AddOutcome q fname key buffer source r := by
  unfold addPayload
  cases hkey : q.activeInvocations key.1 with
  | none =>
    unfold create
    cases htrigger : q.functions fname.1 with
    | none => exact ⟨_, rfl, .rejected _ (Or.inl hkey)⟩
    | some trigger =>
      refine ⟨_, ?_, .created trigger hkey htrigger⟩
      simp only [Invocation.new_ok, hkey]
      rfl
  | some i =>
    cases hactive : i.active with
    | false => exact ⟨_, by simp [hactive], .merged i hkey hactive⟩
    | true =>
      have hrefused : ∃ i, q.activeInvocations key.1 = some i ∧ i.active = true :=
        ⟨i, hkey, hactive⟩
      unfold create
      cases htrigger : q.functions fname.1 with
      | none => exact ⟨_, by simp [hactive], .rejected (unknownFunction fname.1) (Or.inr hrefused)⟩
      | some trigger =>
        refine ⟨_, ?_, .rejected (failedInsert fname.1 key.1) (Or.inr hrefused)⟩
        simp only [hactive, Invocation.new_ok, hkey]
        rfl

/-- The trigger of the invocation behind a pointer lets it run. -/
def ready (q : WorkQueue) (key : Str) : Bool :=
  (q.activeInvocations key).any (·.trigger.ready)

/-- `next`: the first pending invocation that is ready leaves the queue. -/
def next (q : WorkQueue) : Option Str × WorkQueue :=
  (q.pendingInvocations.find? q.ready,
    { q with pendingInvocations := q.pendingInvocations.eraseP q.ready })

theorem next_some {q q' : WorkQueue} {key : Str} (h : q.next = (some key, q')) :
    ∃ before after i, q.pendingInvocations = before ++ key :: after ∧
      q' = { q with pendingInvocations := before ++ after } ∧
      q.activeInvocations key = some i := by
  unfold next at h
  rcases Prod.mk.inj h with ⟨hfind, rfl⟩
  rcases Lists.find_erase hfind with ⟨hready, before, after, hq, herase, -⟩
  rcases (Option.any_eq_true _ _).1 hready with ⟨i, hi, -⟩
  exact ⟨before, after, i, hq, by rw [herase], hi⟩

/-- `finish`: an invocation that runs is taken out of the map. -/
def finish (q : WorkQueue) (key : Str) : Option Invocation × WorkQueue :=
  match q.activeInvocations key with
  | none => (none, q)
  | some i =>
    if i.active then
      (some i, { q with activeInvocations := Function.update q.activeInvocations key none })
    else (none, q)

theorem finish_active {q : WorkQueue} {key : Str} {i : Invocation}
    (found : q.activeInvocations key = some i) (active : i.active = true) :
    q.finish key =
      (some i, { q with activeInvocations := Function.update q.activeInvocations key none }) := by
  unfold finish
  simp only [found, if_pos active]

end WorkQueue

/-! ## Workers -/

structure Workers where
  /-- `busy()` of each worker. -/
  busy : List Bool
  idleWorkers : ℕ
deriving DecidableEq, Repr

namespace Workers

/-- The pool of a fresh controller. -/
def new (functionWorkers : ℕ) : Workers where
  busy := List.replicate functionWorkers false
  idleWorkers := functionWorkers

def hasIdleWorkers (ws : Workers) : Bool := 0 < ws.idleWorkers

/-- `_get_idle_worker`. -/
def getIdleWorker (ws : Workers) : Option ℕ :=
  if ws.idleWorkers = 0 then none else ws.busy.findIdx? (! ·)

/-- `submit`: the buffers are confirmed in the header, the invocation goes to an
idle worker, and both are marked. -/
def submit (ws : Workers) (i : Invocation) : Except Fault (Workers × Invocation × ℕ) :=
  if ws.hasIdleWorkers then do
    let req ← i.req.setBuffers (i.payload.map List.length)
    match ws.getIdleWorker with
    | none => throw .nullPointer
    | some w =>
      return (⟨ws.busy.set w true, ws.idleWorkers - 1⟩, { i with req := req, active := true }, w)
  else throw .noIdleWorkers

theorem getIdleWorker_some {ws : Workers} {w : ℕ} (h : ws.getIdleWorker = some w) :
    ws.busy[w]? = some false := by
  unfold getIdleWorker at h
  split_ifs at h
  rcases List.findIdx?_eq_some_iff_getElem.1 h with ⟨hlt, hfree, -⟩
  rw [List.getElem?_eq_getElem hlt]
  simpa using hfree

/-- A worker is found as long as the counter promises no more than there are. -/
theorem getIdleWorker_of_le {ws : Workers} (h : ws.hasIdleWorkers = true)
    (hidle : ws.idleWorkers ≤ ws.busy.count false) : ∃ w, ws.getIdleWorker = some w := by
  have hpos : 0 < ws.idleWorkers := of_decide_eq_true h
  have hmem : false ∈ ws.busy := List.count_pos_iff.1 (by omega)
  have hsome : (ws.busy.findIdx? (! ·)).isSome := by
    rw [List.findIdx?_isSome, List.any_eq_true]
    exact ⟨false, hmem, rfl⟩
  unfold getIdleWorker
  rw [if_neg (by omega)]
  exact Option.isSome_iff_exists.1 hsome

theorem submit_outcome {ws : Workers} {i : Invocation} (h : ws.hasIdleWorkers = true)
    (hidle : ws.idleWorkers ≤ ws.busy.count false)
    (hlen : i.payload.length ≤ Ipc.InvocationRequest.TABLE_LENGTH) :
    ∃ w, ws.busy[w]? = some false ∧ ws.submit i =
      .ok (⟨ws.busy.set w true, ws.idleWorkers - 1⟩,
        { i with
          req := { i.req with buffers := (i.payload.map List.length).map toInt32 }
          active := true }, w) := by
  rcases getIdleWorker_of_le h hidle with ⟨w, hw⟩
  refine ⟨w, getIdleWorker_some hw, ?_⟩
  unfold submit
  rw [if_pos h, Ipc.InvocationRequest.setBuffers_ok (by simpa using hlen), hw]
  rfl

theorem submit_ok {ws ws' : Workers} {i i' : Invocation} {w : ℕ}
    (h : ws.submit i = .ok (ws', i', w)) :
    ws.getIdleWorker = some w ∧ ws' = ⟨ws.busy.set w true, ws.idleWorkers - 1⟩ ∧
      ∃ buffers, i' = { i with req := { i.req with buffers := buffers }, active := true } := by
  unfold submit at h
  split_ifs at h
  rcases Lts.bind_ok h with ⟨req, hreq, h⟩
  rcases Ipc.InvocationRequest.setBuffers_eq hreq with ⟨buffers, rfl⟩
  split at h
  · cases h
  case h_2 v hv =>
    obtain ⟨rfl, hrest⟩ := Prod.mk.inj (Except.ok.inj h)
    obtain ⟨rfl, rfl⟩ := Prod.mk.inj hrest
    exact ⟨hv, rfl, buffers, rfl⟩

/-- What is sent has its lengths in the header, which has room for them. -/
theorem submit_fits {ws ws' : Workers} {i i' : Invocation} {w : ℕ}
    (h : ws.submit i = .ok (ws', i', w)) :
    i.payload.length ≤ Ipc.InvocationRequest.TABLE_LENGTH ∧
      i' = { i with
        req := { i.req with buffers := (i.payload.map List.length).map toInt32 }
        active := true } := by
  unfold submit at h
  split_ifs at h
  rcases Lts.bind_ok h with ⟨req, hreq, h⟩
  rcases Ipc.InvocationRequest.setBuffers_fits hreq with ⟨hlen, rfl⟩
  rw [List.length_map] at hlen
  split at h
  · cases h
  · obtain ⟨-, hrest⟩ := Prod.mk.inj (Except.ok.inj h)
    exact ⟨hlen, (Prod.mk.inj hrest).1.symm⟩

/-- `finish`. -/
def finish (ws : Workers) (w : ℕ) : Workers where
  busy := ws.busy.set w false
  idleWorkers := ws.idleWorkers + 1

end Workers

end Praas.Process
