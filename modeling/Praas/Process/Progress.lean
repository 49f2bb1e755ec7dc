import Praas.Lib.Executions
import Praas.Process.Dispatch
import Praas.Process.WorkerPool

/-! # Every invocation is executed

An invocation that is accepted waits in the queue until a worker is idle and those before it
have been dispatched; other messages arrive all the time, and each new invocation queues
behind it. Nothing is said of the order in which the poll loop finds its messages, except
that the round of dispatching comes again, and that a worker answers what it runs.
* `Turn`, `turn_step` — what one input can do to the queue, the workers and their jobs;
* `idle_again` — the round of dispatching finds an idle worker again and again;
* `every_invocation_executed` — what is accepted is dispatched with all its payloads, and
  answered.
-/

namespace Praas.Process.WorkerPool

open Invocations (Job Takes)
open Invocations.System (jobFor)

/-! ## What one input can do -/

/-- The worker sends the result of the invocation that it runs. -/
def Answers (s : Pool) (w : ℕ) (j : Job) (e : Controller.Input) : Prop :=
  s.job w = some j ∧ ∃ returnCode payload env,
    e = .internal w (.invocationResult ⟨j.id, returnCode⟩) payload env

/-- The queue, the workers and the jobs of `s` become those of `t`. -/
inductive Turn (s : Pool) (e : Controller.Input) (t : Pool) : Prop where
  | same (he : e ≠ .schedule) (hqueue : t.ctl.workQueue = s.ctl.workQueue)
      (hworkers : t.ctl.workers = s.ctl.workers) (hjob : t.job = s.job)
      (hquiet : ∀ w j, ¬ Answers s w j e)
  | takes (key : Str) (payload : Buffer) (source : InvocationSource) (he : e ≠ .schedule)
      (htakes : Takes s.ctl.workQueue key payload source t.ctl.workQueue)
      (hworkers : t.ctl.workers = s.ctl.workers) (hjob : t.job = s.job)
      (hquiet : ∀ w j, ¬ Answers s w j e)
  | answered (w : ℕ) (j : Job) (hanswers : Answers s w j e)
      (hqueue : t.ctl.workQueue = { s.ctl.workQueue with
        activeInvocations := Function.update s.ctl.workQueue.activeInvocations j.id.1 none })
      (hworkers : t.ctl.workers = s.ctl.workers.finish w)
      (hjob : t.job = Function.update s.job w none)
  | skipped (he : e = .schedule) (ht : t = s)
      (hnone : s.ctl.workers.hasIdleWorkers = false ∨ s.ctl.workQueue.pendingInvocations = [])
  | dispatched (key : Str) (rest : List Str) (i : Invocation) (w : ℕ) (buffers : List Int)
      (he : e = .schedule) (hpending : s.ctl.workQueue.pendingInvocations = key :: rest)
      (hi : s.ctl.workQueue.activeInvocations key = some i)
      (hfree : s.ctl.workers.busy[w]? = some false)
      (hqueue : t.ctl.workQueue =
        { s.ctl.workQueue with pendingInvocations := rest }.setInvocation key
          { i with req := { i.req with buffers := buffers }, active := true })
      (hworkers : t.ctl.workers =
        ⟨s.ctl.workers.busy.set w true, s.ctl.workers.idleWorkers - 1⟩)
      (hjob : t.job = Function.update s.job w (some ⟨i.req.invocationId, i.payload⟩))

section Turns

variable {s t : Pool} {e : Controller.Input}

/-- A handler that only collects changes no job. -/
theorem turn_collects {r : Controller × List Output} (hr : Collects s.ctl r) (he : e ≠ .schedule)
    (hquiet : ∀ w j, ¬ Answers s w j e) :
    Turn s e ⟨r.1, fun w => (r.2.findSome? (jobFor w)).or (s.job w)⟩ := by
  have hjob : (fun w => (r.2.findSome? (jobFor w)).or (s.job w)) = s.job := by
    funext w
    rw [hr.dispatches w]
    rfl
  rcases hr.queue with hsame | ⟨key, payload, source, htakes⟩
  · exact .same he hsame hr.workers hjob hquiet
  · exact .takes key payload source he htakes hr.workers hjob hquiet

/-- The first pending invocation is dispatched, if there is one and a worker for it. -/
theorem turn_schedule (h : Inv s) {r : Controller × List Output} (hr : s.ctl.schedule = .ok r) :
    Turn s .schedule ⟨r.1, fun w => (r.2.findSome? (jobFor w)).or (s.job w)⟩ := by
  unfold Controller.schedule at hr
  split_ifs at hr with hidle
  · cases hpending : s.ctl.workQueue.pendingInvocations with
    | nil =>
      rw [Dispatch.next_nil hpending] at hr
      obtain rfl := Except.ok.inj hr
      exact .skipped rfl rfl (.inr hpending)
    | cons key rest =>
      have hmem : key ∈ s.ctl.workQueue.pendingInvocations := by
        rw [hpending]
        exact List.mem_cons_self
      rcases (h.sound.queued key).1 hmem with ⟨i, hi, hwaits⟩
      rw [Dispatch.next_cons hpending (Dispatch.ready_of_some hi)] at hr
      simp only [hi] at hr
      rcases Lts.bind_ok hr with ⟨⟨ws, i', w⟩, hsubmit, hlast⟩
      obtain rfl := Except.ok.inj hlast
      rcases Workers.submit_ok hsubmit with ⟨hw, rfl, buffers, rfl⟩
      refine .dispatched key rest i w buffers rfl hpending hi (Workers.getIdleWorker_some hw) rfl rfl ?_
      funext v
      rcases eq_or_ne v w with rfl | hne
      · simp [jobFor]
      · simp [jobFor, hne, hne.symm]
  · obtain rfl := Except.ok.inj hr
    exact .skipped rfl rfl (.inl (by simpa using hidle))

theorem turn_internal (h : Inv s) {w : ℕ} {msg : Ipc.MessageVariants} {payload : Buffer} {env : Env}
    (hsend : s.MaySend (.internal w msg payload env)) {r : Controller × List Output}
    (hr : s.ctl.processInternalMessage w msg payload env = .ok r) :
    Turn s (.internal w msg payload env) ⟨r.1, fun v => (r.2.findSome? (jobFor v)).or
      (s.jobsAfter (.internal w msg payload env) v)⟩ := by
  cases msg with
  | invocationResult req =>
    rcases hsend with ⟨j, hj, hid⟩
    rcases (h.sound.running w j hj).2 with ⟨i, hi, hactive, -⟩
    have hresult : s.ctl.processWorkerResult w j.id.1 req.returnCode payload = .ok r := by
      rw [hid]
      exact hr
    rcases processWorkerResult_ok hi hactive hresult with ⟨hqueue, hworkers, hdispatches⟩
    refine .answered w j ⟨hj, req.returnCode, payload, env, ?_⟩ hqueue hworkers ?_
    · rw [hid]
    · funext v
      show (r.2.findSome? (jobFor v)).or (Function.update s.job w none v) = _
      rw [hdispatches v]
      rfl
  | invocationRequest req =>
    refine turn_collects (collects_processInvocation hr) (by simp) ?_
    rintro v j ⟨-, returnCode, payload, env, he⟩
    simp at he
  | putRequest req =>
    refine turn_collects (leaves_processPut hr).collects (by simp) ?_
    rintro v j ⟨-, returnCode, payload, env, he⟩
    simp at he
  | getRequest req =>
    refine turn_collects (leaves_processGet hr).collects (by simp) ?_
    rintro v j ⟨-, returnCode, payload, env, he⟩
    simp at he
  | stateKeysRequest =>
    obtain rfl := Except.ok.inj hr
    refine turn_collects (Leaves.collects ?_) (by simp) ?_
    · exact leaves_of_outputs rfl rfl (by simp [jobFor])
    · rintro v j ⟨-, returnCode, payload, env, he⟩
      simp at he

theorem turn_step (h : Inv s) (hstep : s.step e = .ok t) : Turn s e t := by
  unfold Pool.step at hstep
  split_ifs at hstep with hsend
  · rcases Lts.bind_ok hstep with ⟨r, hr, ht⟩
    obtain rfl := Except.ok.inj ht
    cases e with
    | external m =>
      refine turn_collects (collects_external hr) (by simp) ?_
      rintro w j ⟨-, returnCode, payload, env, he⟩
      cases he
    | internal w msg payload env => exact turn_internal h hsend hr
    | updates updates =>
      refine turn_collects (leaves_updates hr).collects (by simp) ?_
      rintro w j ⟨-, returnCode, payload, env, he⟩
      cases he
    | schedule => exact turn_schedule h hr
  · obtain rfl := Except.ok.inj hstep
    refine .same ?_ rfl rfl rfl ?_
    · rintro rfl
      exact hsend trivial
    · rintro w j ⟨hj, returnCode, payload, env, rfl⟩
      exact hsend ⟨j, hj, rfl⟩

end Turns

/-! ## The workers take turns -/

variable {x : Lts.Execution Pool.step}

/-- The poll loop comes to its round of dispatching again and again, and a worker that runs an
invocation answers it. -/
structure Fair (x : Lts.Execution Pool.step) : Prop where
  schedules : ∀ n, ∃ m, n ≤ m ∧ x.event m = .schedule
  answers : ∀ n w, ((x.state n).job w).isSome →
    ∃ m, n ≤ m ∧ ∃ j, Answers (x.state m) w j (x.event m)

theorem inv_at {processId : Str} {k : ℕ} {functions : Str → Option Trigger}
    (hstart : x.state 0 = Pool.new processId k functions) (n : ℕ) : Inv (x.state n) := by
  refine x.always (fun _ _ _ h hstep => inv_step h hstep) ?_ n
  rw [hstart]
  exact inv_new processId k functions

section Turns

variable {s t : Pool} {e : Controller.Input}

theorem Turn.length_busy (h : Turn s e t) :
    t.ctl.workers.busy.length = s.ctl.workers.busy.length := by
  cases h with
  | same _ _ hworkers => rw [hworkers]
  | takes _ _ _ _ _ hworkers => rw [hworkers]
  | answered _ _ _ _ hworkers =>
    rw [hworkers]
    simp [Workers.finish]
  | skipped _ ht => rw [ht]
  | dispatched _ _ _ _ _ _ _ _ _ _ hworkers =>
    rw [hworkers]
    simp

/-- Only a dispatch takes an idle worker. -/
theorem Turn.idle (h : Turn s e t) (he : e ≠ .schedule)
    (hidle : s.ctl.workers.hasIdleWorkers = true) : t.ctl.workers.hasIdleWorkers = true := by
  cases h with
  | same _ _ hworkers => rwa [hworkers]
  | takes _ _ _ _ _ hworkers => rwa [hworkers]
  | answered _ _ _ _ hworkers =>
    rw [hworkers]
    simp [Workers.finish, Workers.hasIdleWorkers]
  | skipped hschedule => exact absurd hschedule he
  | dispatched _ _ _ _ _ hschedule => exact absurd hschedule he

/-- A job stays with its worker until it is answered. -/
theorem Turn.job_stays (h : Turn s e t) (hinv : Inv s) {w : ℕ} {j : Job} (hj : s.job w = some j)
    (hquiet : ¬ Answers s w j e) : t.job w = some j := by
  cases h with
  | same _ _ _ hjob => rw [hjob, hj]
  | takes _ _ _ _ _ _ hjob => rw [hjob, hj]
  | answered v k hanswers _ _ hjob =>
    have hne : w ≠ v := by
      rintro rfl
      obtain rfl := Option.some.inj (hj.symm.trans hanswers.1)
      exact hquiet hanswers
    rw [hjob, Function.update_of_ne hne, hj]
  | skipped _ ht => rw [ht, hj]
  | dispatched key rest i v buffers _ _ _ hfree _ _ hjob =>
    have hne : w ≠ v := by
      rintro rfl
      have hbusy := (hinv.sound.running w j hj).1
      rw [hfree] at hbusy
      cases hbusy
    rw [hjob, Function.update_of_ne hne, hj]

end Turns

theorem length_busy_at {processId : Str} {k : ℕ} {functions : Str → Option Trigger}
    (hstart : x.state 0 = Pool.new processId k functions) (n : ℕ) :
    (x.state n).ctl.workers.busy.length = k := by
  have hkeeps : ∀ s e s', (Inv s ∧ s.ctl.workers.busy.length = k) → s.step e = .ok s' →
      Inv s' ∧ s'.ctl.workers.busy.length = k := by
    intro s e s' hs hstep
    exact ⟨inv_step hs.1 hstep, (turn_step hs.1 hstep).length_busy.trans hs.2⟩
  have hnew : Inv (x.state 0) ∧ (x.state 0).ctl.workers.busy.length = k := by
    refine ⟨inv_at hstart 0, ?_⟩
    rw [hstart]
    simp [Pool.new, Controller.new, Workers.new]
  exact (x.always hkeeps hnew n).2

/-- Some worker is idle again, sooner or later. -/
theorem idle_comes {processId : Str} {k : ℕ} {functions : Str → Option Trigger}
    (hstart : x.state 0 = Pool.new processId k functions) (hworkers : 0 < k) (hfair : Fair x)
    (n : ℕ) : ∃ m, n ≤ m ∧ (x.state m).ctl.workers.hasIdleWorkers = true := by
  by_cases hidle : (x.state n).ctl.workers.hasIdleWorkers = true
  · exact ⟨n, le_rfl, hidle⟩
  · have hinv := inv_at hstart
    have hlength := length_busy_at hstart n
    -- no worker is idle, so the first one runs something, and answers it
    have hzero : (x.state n).ctl.workers.busy.count false = 0 := by
      rw [← (hinv n).sound.idle]
      simpa [Workers.hasIdleWorkers] using hidle
    have hbusy : (x.state n).ctl.workers.busy[0]? = some true := by
      have hlt : 0 < (x.state n).ctl.workers.busy.length := by omega
      rw [List.getElem?_eq_getElem hlt, Option.some_inj]
      have hmem := List.getElem_mem hlt
      have hnot := List.count_eq_zero.1 hzero
      cases hb : (x.state n).ctl.workers.busy[0] with
      | true => rfl
      | false =>
        rw [hb] at hmem
        exact absurd hmem hnot
    rcases hfair.answers n 0 ((hinv n).occupied 0 hbusy) with ⟨m, hm, j, hanswers⟩
    refine ⟨m + 1, hm.trans m.le_succ, ?_⟩
    cases turn_step (hinv m) (x.next m) with
    | same _ _ _ _ hquiet => exact absurd hanswers (hquiet 0 j)
    | takes _ _ _ _ _ _ _ hquiet => exact absurd hanswers (hquiet 0 j)
    | answered _ _ _ _ hw =>
      rw [hw]
      simp [Workers.finish, Workers.hasIdleWorkers]
    | skipped he =>
      rcases hanswers with ⟨-, returnCode, payload, env, he'⟩
      cases he.symm.trans he'
    | dispatched _ _ _ _ _ he =>
      rcases hanswers with ⟨-, returnCode, payload, env, he'⟩
      cases he.symm.trans he'

/-- The round of dispatching finds an idle worker, sooner or later. -/
theorem idle_again {processId : Str} {k : ℕ} {functions : Str → Option Trigger}
    (hstart : x.state 0 = Pool.new processId k functions) (hworkers : 0 < k) (hfair : Fair x)
    (n : ℕ) : ∃ m, n ≤ m ∧ x.event m = .schedule ∧
      (x.state m).ctl.workers.hasIdleWorkers = true := by
  rcases idle_comes hstart hworkers hfair n with ⟨i, hi, hidle⟩
  -- until the next round of dispatching no idle worker is taken
  rcases Lts.Execution.holds_when (fun s : Pool => s.ctl.workers.hasIdleWorkers = true)
    (fun _ e => e = .schedule) hidle
    (fun m _ hm he => (turn_step (inv_at hstart m) (x.next m)).idle he hm)
    (hfair.schedules i) with ⟨m, hm, hidle', hschedule⟩
  exact ⟨m, hi.trans hm, hschedule, hidle'⟩

/-! ## An invocation in the queue -/

/-- The invocation waits, and `payloads` were added for it first. -/
def Waits (s : Pool) (key : Str) (payloads : List Buffer) : Prop :=
  ∃ i, s.ctl.workQueue.activeInvocations key = some i ∧ i.active = false ∧ payloads <+: i.payload

/-- A worker runs the invocation with these payloads, and perhaps more. -/
def RunsWith (s : Pool) (key : Str) (payloads : List Buffer) : Prop :=
  ∃ w j, s.job w = some j ∧ j.id.1 = key ∧ payloads <+: j.payloads

/-- The number of invocations before `key`. -/
def position (s : Pool) (key : Str) : ℕ := s.ctl.workQueue.pendingInvocations.idxOf key

section Waits

variable {s t : Pool} {e : Controller.Input} {key : Str} {payloads : List Buffer}

theorem Waits.pending (h : Waits s key payloads) (hinv : Inv s) :
    key ∈ s.ctl.workQueue.pendingInvocations := by
  rcases h with ⟨i, hi, hwaits, -⟩
  exact (hinv.sound.queued key).2 ⟨i, hi, hwaits⟩

/-- New payloads come at the end, and new invocations behind. -/
theorem Waits.takes (h : Waits s key payloads) (hinv : Inv s) {key' : Str} {payload : Buffer}
    {source : InvocationSource}
    (htakes : Takes s.ctl.workQueue key' payload source t.ctl.workQueue) :
    Waits t key payloads ∧ position t key = position s key := by
  have hmem := h.pending hinv
  rcases h with ⟨i, hi, hwaits, hprefix⟩
  unfold Waits position
  generalize t.ctl.workQueue = q at htakes ⊢
  cases htakes with
  | merged i' found waits =>
    refine ⟨?_, rfl⟩
    rcases eq_or_ne key key' with rfl | hne
    · obtain rfl := Option.some.inj (hi.symm.trans found)
      exact ⟨i.push payload, by simp, by simpa using hwaits,
        hprefix.trans (List.prefix_append _ _)⟩
    · exact ⟨i, by simp [hne, hi], hwaits, hprefix⟩
  | created i' free named waits payloads' from_source =>
    have hne : key ≠ key' := by
      rintro rfl
      rw [hi] at free
      cases free
    refine ⟨⟨i, by simp [hne, hi], hwaits, hprefix⟩, ?_⟩
    rw [WorkQueue.enqueue_pendingInvocations, List.idxOf_append, if_pos hmem]

/-- One step keeps the invocation waiting, no further back, or dispatches it; a dispatch
brings it forward. -/
theorem waits_step (hinv : Inv s) (hstep : s.step e = .ok t) (h : Waits s key payloads) :
    RunsWith t key payloads ∨ Waits t key payloads ∧ position t key ≤ position s key ∧
      (e = .schedule ∧ s.ctl.workers.hasIdleWorkers = true → position t key < position s key) := by
  have hmem := h.pending hinv
  cases turn_step hinv hstep with
  | same he hqueue hworkers hjob =>
    right
    unfold Waits position
    rw [hqueue]
    exact ⟨h, le_rfl, fun hact => absurd hact.1 he⟩
  | takes key' payload source he htakes =>
    right
    rcases h.takes hinv htakes with ⟨hwaits, hposition⟩
    exact ⟨hwaits, hposition.le, fun hact => absurd hact.1 he⟩
  | answered w j hanswers hqueue hworkers hjob =>
    right
    rcases h with ⟨i, hi, hwaits, hprefix⟩
    have hne : key ≠ j.id.1 := by
      rintro rfl
      rcases (hinv.sound.running w j hanswers.1).2 with ⟨i', hi', hactive, -⟩
      obtain rfl := Option.some.inj (hi.symm.trans hi')
      rw [hwaits] at hactive
      cases hactive
    unfold Waits position
    rw [hqueue]
    refine ⟨⟨i, by simp [hne, hi], hwaits, hprefix⟩, le_rfl, ?_⟩
    rintro ⟨rfl, -⟩
    rcases hanswers with ⟨-, returnCode, payload, env, he⟩
    cases he
  | skipped he ht hnone =>
    right
    rw [ht]
    refine ⟨h, le_rfl, ?_⟩
    rintro ⟨-, hidle⟩
    rcases hnone with hnone | hnone
    · rw [hidle] at hnone
      cases hnone
    · rw [hnone] at hmem
      cases hmem
  | dispatched key' rest i' w buffers he hpending hi' hfree hqueue hworkers hjob =>
    rcases h with ⟨i, hi, hwaits, hprefix⟩
    rcases eq_or_ne key key' with rfl | hne
    · left
      obtain rfl := Option.some.inj (hi.symm.trans hi')
      refine ⟨w, ⟨i.req.invocationId, i.payload⟩, ?_, hinv.sound.named key i hi, hprefix⟩
      rw [hjob, Function.update_self]
    · right
      unfold Waits position
      rw [hqueue, hpending]
      have hfirst : (key' == key) = false := by
        simpa using hne.symm
      have hforward : (key' :: rest).idxOf key = rest.idxOf key + 1 := by
        rw [List.idxOf_cons, hfirst]
        rfl
      refine ⟨⟨i, by simp [hne, hi], hwaits, hprefix⟩, ?_, fun _ => ?_⟩
      · rw [hforward]
        exact Nat.le_succ _
      · rw [hforward]
        exact Nat.lt_succ_self _

end Waits

/-- In every execution in which the poll loop keeps dispatching and the workers answer, each
invocation that was accepted is run by a worker, with all payloads that were accepted for it
in their order, and the worker answers it. New invocations may arrive for ever. -/
theorem every_invocation_executed {processId : Str} {k : ℕ} {functions : Str → Option Trigger}
    (hstart : x.state 0 = Pool.new processId k functions) (hworkers : 0 < k) (hfair : Fair x)
    {n : ℕ} {key : Str} {i : Invocation}
    (hi : (x.state n).ctl.workQueue.activeInvocations key = some i) (hwaits : i.active = false) :
    ∃ m, n ≤ m ∧ ∃ w j, (x.state m).job w = some j ∧ j.id.1 = key ∧ i.payload <+: j.payloads ∧
      ∃ m', m ≤ m' ∧ Answers (x.state m') w j (x.event m') := by
  have hinv := inv_at hstart
  have hdispatched : x.LeadsTo (fun s => Waits s key i.payload) (fun s => RunsWith s key i.payload) := by
    refine Lts.Execution.leadsTo_of_rank (fun s => position s key)
      (fun s e => e = .schedule ∧ s.ctl.workers.hasIdleWorkers = true) ?_ ?_
    · intro m hm
      exact waits_step (hinv m) (x.next m) hm
    · intro m hm
      exact idle_again hstart hworkers hfair m
  rcases hdispatched n ⟨i, hi, hwaits, List.prefix_rfl⟩ with ⟨m, hm, w, j, hj, hid, hprefix⟩
  have hsome : ((x.state m).job w).isSome := by
    rw [hj]
    rfl
  rcases Lts.Execution.holds_when (fun s : Pool => s.job w = some j)
    (fun s e => ∃ j, Answers s w j e) hj
    (fun l _ hl hquiet => (turn_step (hinv l) (x.next l)).job_stays (hinv l) hl
      fun hanswers => hquiet ⟨j, hanswers⟩)
    (hfair.answers m w hsome) with ⟨m', hm', hj', j', hanswers⟩
  obtain rfl := Option.some.inj (hj'.symm.trans hanswers.1)
  exact ⟨m, hm, w, j, hj, hid, hprefix, m', hm', hanswers⟩

/-! One invocation is dispatched and answered, and then the poll loop has nothing to do. -/

def sampleRun : List Controller.Input :=
  [sampleRequest, .schedule, .internal 0 (.invocationResult ⟨default, 0⟩) [] {}]

/-- Without a pending invocation the round of dispatching changes nothing. -/
theorem schedule_empty {s : Pool} (h : s.ctl.workQueue.pendingInvocations = []) :
    s.step .schedule = .ok s := by
  have hschedule : s.ctl.schedule = .ok (s.ctl, []) := by
    unfold Controller.schedule
    split_ifs
    · rw [Dispatch.next_nil h]
    · rfl
  have hsend : s.MaySend .schedule := trivial
  unfold Pool.step
  rw [if_pos hsend]
  show (s.ctl.schedule >>= fun r => _) = _
  rw [hschedule]
  rfl

theorem every_invocation_executed_once : ∃ x : Lts.Execution Pool.step,
    x.state 0 = Pool.new (str ['p']) 1 (fun _ => some .direct) ∧ Fair x ∧
    ∃ m, 1 ≤ m ∧ ∃ w j, (x.state m).job w = some j ∧ j.id.1 = [] ∧ [[]] <+: j.payloads ∧
      ∃ m', m ≤ m' ∧ Answers (x.state m') w j (x.event m') := by
  rcases Lts.run_test Pool.step (Pool.new (str ['p']) 1 fun _ => some .direct) sampleRun
    (fun t => t.ctl.workQueue.pendingInvocations = [] ∧ t.ctl.workers.busy = [false])
    (by decide +kernel) with ⟨t, ht, hpending, hbusy⟩
  rcases Lts.run_test Pool.step (Pool.new (str ['p']) 1 fun _ => some .direct) (sampleRun.take 1)
    (fun s => (s.ctl.workQueue.activeInvocations []).any
      fun i => decide (i.active = false ∧ i.payload = [[]])) (by decide +kernel) with
    ⟨s₁, hs₁, hactive₁⟩
  rcases Lts.run_test Pool.step (Pool.new (str ['p']) 1 fun _ => some .direct) (sampleRun.take 2)
    (fun s => s.job 0 = some ⟨default, [[]]⟩) (by decide +kernel) with ⟨s₂, hs₂, hjob₂⟩
  let x := Lts.Execution.lasso ht (schedule_empty hpending)
  have hstart : x.state 0 = Pool.new (str ['p']) 1 (fun _ => some .direct) := rfl
  have hfirst : x.state 1 = s₁ := Except.ok.inj ((Lts.run_take ht 1).symm.trans hs₁)
  have hsecond : x.state 2 = s₂ := Except.ok.inj ((Lts.run_take ht 2).symm.trans hs₂)
  have hinv := inv_at hstart
  have hfair : Fair x := by
    constructor
    case schedules =>
      intro n
      exact ⟨max n 3, le_max_left _ _, List.getD_eq_default _ _ (le_max_right _ _)⟩
    case answers =>
      intro n w hw
      rcases Option.isSome_iff_exists.1 hw with ⟨j, hj⟩
      have hrunning := ((hinv n).sound.running w j hj).1
      rcases Nat.lt_or_ge n 3 with hlt | hge
      · -- there is one worker, and the third event is its result
        have hone : w = 0 := by
          have hbound := (List.getElem?_eq_some_iff.1 hrunning).1
          have hlength := length_busy_at hstart n
          omega
        refine ⟨2, by omega, ⟨default, [[]]⟩, ?_⟩
        rw [hone]
        refine ⟨?_, 0, [], {}, rfl⟩
        rw [hsecond]
        exact hjob₂
      · have hsettled : x.state n = t := Lts.stateAfter_of_le ht hge
        rw [hsettled, hbusy] at hrunning
        rcases List.getElem?_eq_some_iff.1 hrunning with ⟨hbound, htrue⟩
        simp at htrue
  rcases (Option.any_eq_true _ _).1 hactive₁ with ⟨i, hi, hwaits⟩
  simp only [decide_eq_true_eq] at hwaits
  rw [← hfirst] at hi
  rcases every_invocation_executed hstart Nat.one_pos hfair hi hwaits.1 with
    ⟨m, hm, w, j, hj, hid, hprefix, hanswered⟩
  rw [hwaits.2] at hprefix
  exact ⟨x, hstart, hfair, m, hm, w, j, hj, hid, hprefix, hanswered⟩

end Praas.Process.WorkerPool
