import Mathlib.Data.Set.Function
import Praas.Process.Invocations

/-! # The accounts of the worker pool

The controller counts its idle workers, marks each worker as busy or not, and marks the
invocations that run as active. The three accounts are kept in different functions; here
they are followed through every message that the controller handles, from the TCP server
and from the workers.

A worker sends a result for the invocation last dispatched to it, and once. Nothing else
is assumed of the workers: they send requests and messages at any time.
-/

namespace Praas.Process.WorkerPool

open Invocations (Job Takes Refuses sound_takes sound_submit sound_finish sound_new)
open Invocations.System (jobFor)

/-- The controller, and the invocation that was dispatched to each worker and is not
answered yet. -/
structure Pool where
  ctl : Controller
  job : ℕ → Option Job

namespace Pool

def new (processId : Str) (functionWorkers : ℕ) (functions : Str → Option Trigger) : Pool where
  ctl := Controller.new processId functionWorkers functions
  job := fun _ => none

/-- What the loop of the invoker sends: a result only for its own invocation. -/
def MaySend (s : Pool) : Controller.Input → Prop
  | .internal w (.invocationResult req) _ _ => ∃ j ∈ s.job w, j.id = req.invocationId
  | _ => True

instance (s : Pool) (e : Controller.Input) : Decidable (s.MaySend e) :=
  match e with
  | .internal _ (.invocationResult _) _ _ => inferInstanceAs (Decidable (∃ _ ∈ _, _))
  | .internal _ (.getRequest _) _ _ | .internal _ (.putRequest _) _ _
  | .internal _ (.invocationRequest _) _ _ | .internal _ .stateKeysRequest _ _
  | .external _ | .updates _ | .schedule => isTrue trivial

/-- A worker that has answered runs nothing. -/
def jobsAfter (s : Pool) : Controller.Input → ℕ → Option Job
  | .internal w (.invocationResult _) _ _ => Function.update s.job w none
  | _ => s.job

def step (s : Pool) (e : Controller.Input) : Except Fault Pool :=
  if s.MaySend e then do
    let r ← s.ctl.handle e
    return ⟨r.1, fun w => (r.2.findSome? (jobFor w)).or (s.jobsAfter e w)⟩
  else .ok s

end Pool

/-! ## What the handlers do to the pool -/

/-- A handler leaves the queue and the workers alone, and dispatches nothing. -/
structure Leaves (c : Controller) (r : Controller × List Output) : Prop where
  queue : r.1.workQueue = c.workQueue
  workers : r.1.workers = c.workers
  dispatches : ∀ w, r.2.findSome? (jobFor w) = none

/-- A handler may take a payload into the queue. -/
structure Collects (c : Controller) (r : Controller × List Output) : Prop where
  queue : r.1.workQueue = c.workQueue ∨
    ∃ key payload source, Takes c.workQueue key payload source r.1.workQueue
  workers : r.1.workers = c.workers
  dispatches : ∀ w, r.2.findSome? (jobFor w) = none

theorem Leaves.collects {c : Controller} {r : Controller × List Output} (h : Leaves c r) :
    Collects c r :=
  ⟨.inl h.queue, h.workers, h.dispatches⟩

section Handlers

variable {c : Controller} {r : Controller × List Output}

/-- Nothing is sent that dispatches an invocation. -/
theorem leaves_of_outputs {c' : Controller} {out : List Output}
    (hqueue : c'.workQueue = c.workQueue) (hworkers : c'.workers = c.workers)
    (hout : ∀ o ∈ out, ∀ w, jobFor w o = none) : Leaves c (c', out) where
  queue := hqueue
  workers := hworkers
  dispatches w := List.findSome?_eq_none_iff.2 fun o ho => hout o ho w

theorem leaves_wake {id : Str} {returnCode : Int} {payload : Buffer}
    (h : c.wake id returnCode payload = .ok r) : Leaves c r := by
  unfold Controller.wake at h
  rcases Lts.bind_ok h with ⟨result, -, hr⟩
  obtain rfl := Except.ok.inj hr
  refine leaves_of_outputs rfl rfl fun o ho w => ?_
  rcases List.mem_map.1 ho with ⟨v, -, rfl⟩
  rfl

theorem leaves_processInvocationResult {source : InvocationSource} {id : Str}
    {returnCode : Int} {payload : Buffer}
    (h : c.processInvocationResult source id returnCode payload = .ok r) : Leaves c r := by
  unfold Controller.processInvocationResult at h
  split_ifs at h
  · obtain rfl := Except.ok.inj h
    exact leaves_of_outputs rfl rfl (by simp [jobFor])
  · exact leaves_wake h

theorem collects_submitPayload {fname : Ipc.Text Ipc.NAME_LENGTH} {id : Ipc.Text Ipc.ID_LENGTH}
    {payload : Buffer} {source : InvocationSource}
    (h : c.submitPayload fname.1 id.1 payload source = .ok r) : Collects c r := by
  rcases Invocations.submitPayload_cases c fname id payload source with
    ⟨q, htakes, hsub⟩ | ⟨message, -, hsub⟩
  · rw [hsub] at h
    obtain rfl := Except.ok.inj h
    exact ⟨.inr ⟨id.1, payload, source, htakes⟩, rfl, fun w => rfl⟩
  · rw [hsub] at h
    exact (leaves_processInvocationResult h).collects

theorem leaves_deliver {name source : Str} {payload : Buffer}
    (h : c.deliver name source payload = .ok r) : Leaves c r := by
  unfold Controller.deliver at h
  dsimp only at h
  split at h
  · rcases Lts.bind_ok h with ⟨req, -, h⟩
    rcases Lts.bind_ok h with ⟨req', -, h⟩
    obtain rfl := Except.ok.inj h
    exact leaves_of_outputs rfl rfl (by simp [jobFor])
  · obtain rfl := Except.ok.inj h
    exact leaves_of_outputs rfl rfl (by simp)

theorem leaves_processPut {req : Ipc.GenericRequestParsed} {payload : Buffer} {env : Env}
    (h : c.processPut req payload env = .ok r) : Leaves c r := by
  unfold Controller.processPut at h
  split_ifs at h
  · rcases Lts.bind_ok h with ⟨mailbox, -, h⟩
    obtain rfl := Except.ok.inj h
    exact leaves_of_outputs rfl rfl (by simp)
  · exact leaves_deliver h
  · obtain rfl := Except.ok.inj h
    exact leaves_of_outputs rfl rfl (by simp [jobFor])

theorem leaves_processGet {w : ℕ} {req : Ipc.GenericRequestParsed} {env : Env}
    (h : c.processGet w req env = .ok r) : Leaves c r := by
  unfold Controller.processGet at h
  split_ifs at h
  · rcases Lts.bind_ok h with ⟨reply, -, h⟩
    obtain rfl := Except.ok.inj h
    exact leaves_of_outputs rfl rfl (by simp [jobFor])
  · dsimp only at h
    split at h
    · rcases Lts.bind_ok h with ⟨reply, -, h⟩
      rcases Lts.bind_ok h with ⟨reply', -, h⟩
      obtain rfl := Except.ok.inj h
      exact leaves_of_outputs rfl rfl (by simp [jobFor])
    · obtain rfl := Except.ok.inj h
      exact leaves_of_outputs rfl rfl (by simp)

/-- The call is stored before its payload is taken in. -/
theorem collects_processInvocation {w : ℕ} {req : Ipc.InvocationRequestParsed} {payload : Buffer}
    {env : Env} (h : c.processInvocation w req payload env = .ok r) : Collects c r := by
  unfold Controller.processInvocation at h
  dsimp only at h
  split_ifs at h
  · have hsub := collects_submitPayload h
    exact ⟨hsub.queue, hsub.workers, hsub.dispatches⟩
  · obtain rfl := Except.ok.inj h
    apply Leaves.collects
    exact leaves_of_outputs rfl rfl (by simp [jobFor])

theorem collects_external {m : ExternalMessage} (h : c.processExternalMessage m = .ok r) :
    Collects c r := by
  unfold Controller.processExternalMessage at h
  rcases Lts.bind_ok h with ⟨parsed, -, h⟩
  cases parsed with
  | invocationRequest req =>
    let fname := Ipc.Text.read req (Message.HEADER_OFFSET + 4) Ipc.NAME_LENGTH
    let id := Ipc.Text.read req (Message.HEADER_OFFSET + Message.NAME_LENGTH + 4) Ipc.ID_LENGTH
    have hsubmit : c.submitPayload fname.1 id.1 m.payload m.invocationSource = .ok r := h
    exact collects_submitPayload hsubmit
  | invocationResult req => exact (leaves_wake h).collects
  | putMessage req => exact (leaves_deliver h).collects
  | _ =>
    obtain rfl := Except.ok.inj h
    apply Leaves.collects
    exact leaves_of_outputs rfl rfl (by simp)

theorem leaves_updates {updates : List Common.ApplicationUpdate}
    (h : c.processApplicationUpdates updates = .ok r) : Leaves c r := by
  unfold Controller.processApplicationUpdates at h
  rcases Lts.bind_ok h with ⟨msgs, -, h⟩
  obtain rfl := Except.ok.inj h
  refine leaves_of_outputs rfl rfl fun o ho w => ?_
  rcases List.mem_flatMap.1 ho with ⟨msg, -, ho⟩
  rcases List.mem_map.1 ho with ⟨v, -, rfl⟩
  rfl

/-- The invocation that is answered leaves the map, and its worker is idle again. -/
theorem processWorkerResult_ok {w : ℕ} {id : Str} {returnCode : Int} {payload : Buffer}
    {i : Invocation} (hi : c.workQueue.activeInvocations id = some i) (hactive : i.active = true)
    (h : c.processWorkerResult w id returnCode payload = .ok r) :
    r.1.workQueue = { c.workQueue with
        activeInvocations := Function.update c.workQueue.activeInvocations id none } ∧
      r.1.workers = c.workers.finish w ∧ ∀ v, r.2.findSome? (jobFor v) = none := by
  unfold Controller.processWorkerResult at h
  rw [WorkQueue.finish_active hi hactive] at h
  rcases Lts.bind_ok h with ⟨r', hr', h⟩
  obtain rfl := Except.ok.inj h
  have hleaves := leaves_processInvocationResult hr'
  refine ⟨hleaves.queue, ?_, hleaves.dispatches⟩
  show r'.1.workers.finish w = c.workers.finish w
  rw [hleaves.workers]
  rfl

/-- The first invocation that can run goes to an idle worker, or nothing happens. -/
theorem schedule_ok (h : c.schedule = .ok r) :
    r = (c, []) ∨ ∃ before after key i w buffers,
      c.workQueue.pendingInvocations = before ++ key :: after ∧
      c.workQueue.activeInvocations key = some i ∧ c.workers.busy[w]? = some false ∧
      r.1.workQueue = { c.workQueue with pendingInvocations := before ++ after }.setInvocation key
        { i with req := { i.req with buffers := buffers }, active := true } ∧
      r.1.workers = ⟨c.workers.busy.set w true, c.workers.idleWorkers - 1⟩ ∧
      r.2 = [.toWorker w (.invocationRequest { i.req with buffers := buffers } i.payload)] := by
  unfold Controller.schedule at h
  split_ifs at h
  · split at h
    · exact .inl (Except.ok.inj h).symm
    case h_2 key q hnext =>
      rcases WorkQueue.next_some hnext with ⟨before, after, i, hpending, rfl, hi⟩
      dsimp only at h
      rw [hi] at h
      rcases Lts.bind_ok h with ⟨⟨ws, i', w⟩, hsubmit, h⟩
      obtain rfl := Except.ok.inj h
      rcases Workers.submit_ok hsubmit with ⟨hw, rfl, buffers, rfl⟩
      have hfree := Workers.getIdleWorker_some hw
      exact .inr ⟨before, after, key, i, w, buffers, hpending, hi, hfree, rfl, rfl, rfl⟩
  · exact .inl (Except.ok.inj h).symm

end Handlers

/-! ## The accounts agree -/

/-- The queue and the workers agree with what was dispatched, and only a worker to which an
invocation was dispatched is busy. -/
structure Inv (s : Pool) : Prop where
  sound : Invocations.Sound s.ctl.workQueue s.ctl.workers s.job
  occupied : ∀ w, s.ctl.workers.busy[w]? = some true → (s.job w).isSome

theorem inv_new (processId : Str) (n : ℕ) (functions : Str → Option Trigger) :
    Inv (Pool.new processId n functions) where
  sound := sound_new functions n
  occupied w h := by
    rcases List.getElem?_eq_some_iff.1 h with ⟨hlt, hbusy⟩
    simp [Pool.new, Controller.new, Workers.new] at hbusy

section Steps

variable {s t : Pool}

/-- A payload is taken in, or not even that. -/
theorem Inv.collects (h : Inv s) {r : Controller × List Output} (hr : Collects s.ctl r) :
    Inv ⟨r.1, fun w => (r.2.findSome? (jobFor w)).or (s.job w)⟩ := by
  have hjob : (fun w => (r.2.findSome? (jobFor w)).or (s.job w)) = s.job := by
    funext w
    rw [hr.dispatches w]
    rfl
  rw [hjob]
  constructor
  case sound =>
    rw [hr.workers]
    rcases hr.queue with hsame | ⟨key, payload, source, htakes⟩
    · rw [hsame]
      exact h.sound
    · exact sound_takes h.sound htakes
  case occupied =>
    rw [hr.workers]
    exact h.occupied

theorem Inv.result (h : Inv s) {w : ℕ} {j : Job} (hj : s.job w = some j) {returnCode : Int}
    {payload : Buffer} {r : Controller × List Output}
    (hr : s.ctl.processWorkerResult w j.id.1 returnCode payload = .ok r) :
    Inv ⟨r.1, fun v => (r.2.findSome? (jobFor v)).or (Function.update s.job w none v)⟩ := by
  rcases (h.sound.running w j hj).2 with ⟨i, hi, hactive, -⟩
  rcases processWorkerResult_ok hi hactive hr with ⟨hqueue, hworkers, hdispatches⟩
  have hjob : (fun v => (r.2.findSome? (jobFor v)).or (Function.update s.job w none v)) =
      Function.update s.job w none := by
    funext v
    rw [hdispatches v]
    rfl
  rw [hjob]
  constructor
  case sound =>
    rw [hqueue, hworkers]
    exact sound_finish h.sound hj
  case occupied =>
    intro v hv
    show (Function.update s.job w none v).isSome
    rw [hworkers] at hv
    rcases eq_or_ne v w with rfl | hne
    · rcases List.getElem?_eq_some_iff.1 hv with ⟨hlt, hbusy⟩
      simp [Workers.finish] at hbusy
    · rw [Function.update_of_ne hne]
      exact h.occupied v (by simpa [Workers.finish, hne.symm] using hv)

theorem Inv.schedule (h : Inv s) {r : Controller × List Output} (hr : s.ctl.schedule = .ok r) :
    Inv ⟨r.1, fun w => (r.2.findSome? (jobFor w)).or (s.job w)⟩ := by
  rcases schedule_ok hr with rfl | ⟨before, after, key, i, w, buffers, hpending, hi, hfree, hqueue,
    hworkers, hout⟩
  · exact h
  have hjob : (fun v => (r.2.findSome? (jobFor v)).or (s.job v)) =
      Function.update s.job w (some ⟨i.req.invocationId, i.payload⟩) := by
    funext v
    rw [hout]
    rcases eq_or_ne v w with rfl | hne
    · simp [jobFor]
    · simp [jobFor, hne, hne.symm]
  rw [hjob]
  constructor
  case sound =>
    rw [hqueue, hworkers]
    exact sound_submit h.sound buffers hpending hi hfree
  case occupied =>
    intro v hv
    show (Function.update s.job w (some _) v).isSome
    rw [hworkers] at hv
    rcases eq_or_ne v w with rfl | hne
    · rw [Function.update_self]
      rfl
    · rw [Function.update_of_ne hne]
      exact h.occupied v (by simpa [hne.symm] using hv)

theorem inv_internal (h : Inv s) {w : ℕ} {msg : Ipc.MessageVariants} {payload : Buffer} {env : Env}
    (hsend : s.MaySend (.internal w msg payload env)) {r : Controller × List Output}
    (hr : s.ctl.processInternalMessage w msg payload env = .ok r) :
    Inv ⟨r.1, fun v => (r.2.findSome? (jobFor v)).or
      (s.jobsAfter (.internal w msg payload env) v)⟩ := by
  cases msg with
  | invocationResult req =>
    rcases hsend with ⟨j, hj, hid⟩
    -- the only message that makes a worker idle
    have hresult : s.ctl.processWorkerResult w j.id.1 req.returnCode payload = .ok r := by
      rw [hid]
      exact hr
    exact h.result hj hresult
  | invocationRequest req => exact h.collects (collects_processInvocation hr)
  | putRequest req => exact h.collects (leaves_processPut hr).collects
  | getRequest req => exact h.collects (leaves_processGet hr).collects
  | stateKeysRequest =>
    obtain rfl := Except.ok.inj hr
    refine h.collects (Leaves.collects ?_)
    exact leaves_of_outputs rfl rfl (by simp [jobFor])

theorem inv_step {e : Controller.Input} (h : Inv s) (hstep : s.step e = .ok t) : Inv t := by
  unfold Pool.step at hstep
  split_ifs at hstep with hsend
  · rcases Lts.bind_ok hstep with ⟨r, hr, ht⟩
    obtain rfl := Except.ok.inj ht
    cases e with
    | external m => exact h.collects (collects_external hr)
    | internal w msg payload env => exact inv_internal h hsend hr
    | updates updates => exact h.collects (leaves_updates hr).collects
    | schedule => exact h.schedule hr
  · exact Except.ok.inj hstep ▸ h

theorem inv_run {processId : Str} {n : ℕ} {functions : Str → Option Trigger}
    {es : List Controller.Input}
    (h : Lts.run Pool.step (Pool.new processId n functions) es = .ok s) : Inv s :=
  Lts.run_always (fun _ _ _ hs hstep => inv_step hs hstep) (inv_new processId n functions) h

end Steps

/-! ## The accounts in every state -/

/-- The key of the invocation that a worker runs. -/
def Pool.holds (s : Pool) (w : ℕ) : Str := ((s.job w).map (·.id.1)).getD []

structure Accounted (s : Pool) : Prop where
  idle : s.ctl.workers.idleWorkers = s.ctl.workers.busy.count false
  /-- Each busy worker runs one active invocation, and each active invocation is run by one
  busy worker. -/
  busy : Set.BijOn s.holds {w | s.ctl.workers.busy[w]? = some true}
    {key | ∃ i, s.ctl.workQueue.activeInvocations key = some i ∧ i.active = true}
  dispatched : ∀ w, s.ctl.workers.busy[w]? = some true ↔ (s.job w).isSome
  /-- `submit` looks for a worker only if one is idle. -/
  finds : s.ctl.workers.hasIdleWorkers = true → ∃ w, s.ctl.workers.getIdleWorker = some w

theorem accounted_of_inv {s : Pool} (h : Inv s) : Accounted s := by
  have hbusy : ∀ w, s.ctl.workers.busy[w]? = some true → ∃ j, s.job w = some j ∧ s.holds w = j.id.1 := by
    intro w hw
    rcases Option.isSome_iff_exists.1 (h.occupied w hw) with ⟨j, hj⟩
    exact ⟨j, hj, by simp [Pool.holds, hj]⟩
  constructor
  case idle => exact h.sound.idle
  case dispatched =>
    intro w
    refine ⟨h.occupied w, fun hsome => ?_⟩
    rcases Option.isSome_iff_exists.1 hsome with ⟨j, hj⟩
    exact (h.sound.running w j hj).1
  case finds => exact fun hidle => Workers.getIdleWorker_of_le hidle h.sound.idle.le
  case busy =>
    refine ⟨?_, ?_, ?_⟩
    · intro w hw
      rcases hbusy w hw with ⟨j, hj, hholds⟩
      rcases (h.sound.running w j hj).2 with ⟨i, hi, hactive, -⟩
      exact ⟨i, by rwa [hholds], hactive⟩
    · intro v hv w hw heq
      rcases hbusy v hv with ⟨j, hj, hjholds⟩
      rcases hbusy w hw with ⟨k, hk, hkholds⟩
      rw [hjholds, hkholds] at heq
      exact h.sound.once v w j k hj hk (Subtype.ext heq)
    · rintro key ⟨i, hi, hactive⟩
      rcases h.sound.runs key i hi hactive with ⟨w, j, hj, hid⟩
      have hw := (h.sound.running w j hj).1
      exact ⟨w, hw, by simp [Pool.holds, hj, hid]⟩

/-- In every state of every run the three accounts agree. -/
theorem worker_pool_run (processId : Str) (functionWorkers : ℕ) (functions : Str → Option Trigger)
    (es : List Controller.Input) (s : Pool)
    (hrun : Lts.run Pool.step (Pool.new processId functionWorkers functions) es = .ok s) :
    Accounted s :=
  accounted_of_inv (inv_run hrun)

def sampleRequest : Controller.Input :=
  .external (dataplaneMessage (Message.MessageData.new .invocationRequest).buf [])

/-- The key is used twice, and its second invocation runs. -/
theorem worker_pool_run_twice :
    ∃ s, Lts.run Pool.step (Pool.new (str ['p']) 2 fun _ => some .direct)
        [sampleRequest, .schedule, .internal 0 (.invocationResult ⟨default, 0⟩) [] {},
          sampleRequest, .schedule] = .ok s ∧
      s.ctl.workers = ⟨[true, false], 1⟩ ∧ Accounted s := by
  have hrun := Lts.run_test Pool.step (Pool.new (str ['p']) 2 fun _ => some .direct)
    [sampleRequest, .schedule, .internal 0 (.invocationResult ⟨default, 0⟩) [] {},
      sampleRequest, .schedule] (fun s => s.ctl.workers = ⟨[true, false], 1⟩) (by decide +kernel)
  rcases hrun with ⟨s, hs, hworkers⟩
  exact ⟨s, hs, hworkers, worker_pool_run _ _ _ _ s hs⟩

end Praas.Process.WorkerPool
