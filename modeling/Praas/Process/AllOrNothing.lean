import Praas.Process.Dispatch
import Praas.Process.WorkerPool

/-! # A dispatch that raises

`WorkQueue::next` takes an invocation out of the queue before `Workers::submit` fills its
header, and `add_payload` collects more buffers than a header has room for. Here a round of
the loop in `Controller::poll` is followed to where an exception leaves it.

* `attempt_sent`, `attempt_lost`: a round that sends the invocation, and one that raises.
* `dispatch_iff`: a dispatch is all or nothing, and the loop does not raise, if and only if
  the buffers fit.
-/

namespace Praas.Process.AllOrNothing

open WorkerPool (Pool Inv inv_run inv_step)
open Ipc.InvocationRequest (TABLE_LENGTH)

/-! ## Rounds of the loop -/

/-- What a round of the loop leaves, also if it raises. -/
structure Attempt where
  ctl : Controller
  outputs : List Output
  raised : Bool

/-- One round; `sent` is whether `mq_send` succeeds. -/
def attempt (c : Controller) (sent : Bool) : Attempt :=
  if c.workers.hasIdleWorkers then
    match c.workQueue.next with
    | (none, _) => ⟨c, [], false⟩
    | (some key, q) =>
      match q.activeInvocations key with
      | none => ⟨c.setQueue q, [], true⟩
      | some i =>
        match c.workers.submit i with
        | .error _ => ⟨c.setQueue q, [], true⟩
        | .ok (ws, i', w) =>
          if sent then
            ⟨(c.setQueue (q.setInvocation key i')).setWorkers ws,
              [.toWorker w (.invocationRequest i'.req i'.payload)], false⟩
          else ⟨c.setQueue (q.setInvocation key { i with req := i'.req }), [], true⟩
  else ⟨c, [], false⟩

/-- The loop, for a number of rounds; a round without a worker or an invocation changes
nothing. -/
def loop : ℕ → Controller → Except Fault Controller
  | 0, c => .ok c
  | rounds + 1, c => do
    let r ← c.schedule
    loop rounds r.1

/-! ## All or nothing -/

/-- The invocation is sent to an idle worker, and all accounts say so. -/
def Submitted (c : Controller) (key : Str) (a : Attempt) : Prop :=
  ∃ i i' w, c.workQueue.activeInvocations key = some i ∧ c.workers.busy[w]? = some false ∧
    a.outputs = [.toWorker w (.invocationRequest i'.req i.payload)] ∧
    a.ctl.workQueue.activeInvocations key = some i' ∧ i'.active = true ∧
    a.ctl.workers.busy = c.workers.busy.set w true ∧
    a.ctl.workers.idleWorkers = c.workers.idleWorkers - 1

/-- Nothing is sent, and the invocation is still pending. -/
def Unchanged (c : Controller) (key : Str) (a : Attempt) : Prop :=
  a.outputs = [] ∧ key ∈ a.ctl.workQueue.pendingInvocations ∧
    (∃ i, a.ctl.workQueue.activeInvocations key = some i ∧ i.active = false) ∧
    a.ctl.workers = c.workers

/-- All or nothing. -/
def Holds (c : Controller) (key : Str) (a : Attempt) : Prop :=
  (a.raised = false ∧ Submitted c key a) ∨ (a.raised = true ∧ Unchanged c key a)

/-- The table in the header has room for the buffers of the invocation. -/
def Fits (c : Controller) (key : Str) : Prop :=
  ∀ i ∈ c.workQueue.activeInvocations key, i.payload.length ≤ TABLE_LENGTH

/-! ## What a round does -/

theorem submit_error (ws : Workers) {i : Invocation} (h : TABLE_LENGTH < i.payload.length) :
    ∃ f, ws.submit i = .error f := by
  cases hsubmit : ws.submit i with
  | error f => exact ⟨f, rfl⟩
  | ok r =>
    have hfits := (Workers.submit_fits hsubmit).1
    omega

section Rounds

variable {c : Controller} {key : Str} {q : WorkQueue} {i : Invocation}

theorem attempt_sent {ws : Workers} {i' : Invocation} {w : ℕ}
    (hidle : c.workers.hasIdleWorkers = true) (hnext : c.workQueue.next = (some key, q))
    (hi : q.activeInvocations key = some i) (hsubmit : c.workers.submit i = .ok (ws, i', w)) :
    attempt c true = ⟨(c.setQueue (q.setInvocation key i')).setWorkers ws,
      [.toWorker w (.invocationRequest i'.req i'.payload)], false⟩ := by
  unfold attempt
  rw [if_pos hidle, hnext]
  dsimp only
  rw [hi]
  dsimp only
  rw [hsubmit]
  rfl

/-- A round that raises has taken the invocation out of the queue. -/
theorem attempt_lost {sent : Bool} (hidle : c.workers.hasIdleWorkers = true)
    (hnext : c.workQueue.next = (some key, q)) (hi : q.activeInvocations key = some i)
    (hraises : sent = false ∨ TABLE_LENGTH < i.payload.length) :
    (attempt c sent).raised = true ∧
      (attempt c sent).ctl.workQueue.pendingInvocations = q.pendingInvocations := by
  unfold attempt
  rw [if_pos hidle, hnext]
  dsimp only
  rw [hi]
  dsimp only
  cases hsubmit : c.workers.submit i with
  | error f => exact ⟨rfl, rfl⟩
  | ok r =>
    have hfits := (Workers.submit_fits hsubmit).1
    rcases hraises with rfl | hlarge
    · exact ⟨rfl, rfl⟩
    · omega

end Rounds

/-! ## Reachable states -/

section Reachable

variable {s : Pool} {key : Str} {q : WorkQueue}

theorem attempt_iff (h : Inv s) (hidle : s.ctl.workers.hasIdleWorkers = true)
    (hnext : s.ctl.workQueue.next = (some key, q)) (sent : Bool) :
    Holds s.ctl key (attempt s.ctl sent) ↔ sent = true ∧ Fits s.ctl key := by
  rcases WorkQueue.next_some hnext with ⟨before, after, i, hpending, rfl, hi⟩
  constructor
  · intro hall
    by_contra hnot
    have hraises : sent = false ∨ TABLE_LENGTH < i.payload.length := by
      by_contra hneither
      rcases not_or.1 hneither with ⟨hsent, hlen⟩
      refine hnot ⟨by simpa using hsent, ?_⟩
      intro j hj
      obtain rfl := Option.some.inj (hi.symm.trans hj)
      exact not_lt.1 hlen
    rcases attempt_lost hidle hnext hi hraises with ⟨hraised, hqueue⟩
    rcases hall with ⟨hfine, -⟩ | ⟨-, -, hmem, -⟩
    · rw [hraised] at hfine
      cases hfine
    · -- the key stood in the queue once
      have hnodup := h.sound.nodup
      rw [hpending] at hnodup
      rw [hqueue] at hmem
      exact (List.nodup_middle.1 hnodup).notMem hmem
  · rintro ⟨rfl, hfits⟩
    rcases Workers.submit_outcome hidle h.sound.idle.le (hfits i hi) with ⟨w, hfree, hsubmit⟩
    have hsent := attempt_sent hidle hnext hi hsubmit
    refine Or.inl ⟨by rw [hsent], i, _, w, hi, hfree, by rw [hsent], ?_, rfl, by rw [hsent]; rfl,
      by rw [hsent]; rfl⟩
    rw [hsent]
    simp [Controller.setWorkers, Controller.setQueue, WorkQueue.setInvocation]

/-- With the direct trigger the first pending invocation is ready. -/
theorem next_cons (h : Inv s) {rest : List Str}
    (hpending : s.ctl.workQueue.pendingInvocations = key :: rest) :
    s.ctl.workQueue.next = (some key, { s.ctl.workQueue with pendingInvocations := rest }) := by
  have hmem : key ∈ s.ctl.workQueue.pendingInvocations := by
    rw [hpending]
    exact List.mem_cons_self
  rcases (h.sound.queued key).1 hmem with ⟨i, hi, -⟩
  have hready := Dispatch.ready_of_some hi
  unfold WorkQueue.next
  rw [hpending, List.find?_cons_of_pos hready, List.eraseP_cons_of_pos hready]

/-- A round of the loop that sends the first pending invocation. -/
theorem schedule_fits (h : Inv s) {rest : List Str}
    (hidle : s.ctl.workers.hasIdleWorkers = true)
    (hpending : s.ctl.workQueue.pendingInvocations = key :: rest) (hfits : Fits s.ctl key) :
    ∃ t : Pool, Inv t ∧ (∃ outs, s.ctl.schedule = .ok (t.ctl, outs)) ∧
      t.ctl.workQueue.pendingInvocations = rest ∧
      t.ctl.workers.idleWorkers = s.ctl.workers.idleWorkers - 1 ∧
      ∀ k ∈ rest, (Fits t.ctl k ↔ Fits s.ctl k) := by
  have hnext := next_cons h hpending
  rcases WorkQueue.next_some hnext with ⟨-, -, i, -, -, hi⟩
  rcases Workers.submit_outcome hidle h.sound.idle.le (hfits i hi) with ⟨w, -, hsubmit⟩
  have hschedule : ∃ r, s.ctl.schedule = .ok r ∧
      r.1.workQueue.pendingInvocations = rest ∧
      r.1.workers.idleWorkers = s.ctl.workers.idleWorkers - 1 ∧
      ∀ k, k ≠ key → r.1.workQueue.activeInvocations k = s.ctl.workQueue.activeInvocations k := by
    unfold Controller.schedule
    rw [if_pos hidle, hnext]
    dsimp only
    rw [hi]
    dsimp only
    rw [hsubmit]
    refine ⟨_, rfl, rfl, rfl, fun k hk => ?_⟩
    simp [Controller.setWorkers, Controller.setQueue, WorkQueue.setInvocation, hk]
  rcases hschedule with ⟨r, hr, hrest, hidle', hothers⟩
  have hstep : s.step .schedule = .ok
      ⟨r.1, fun w => (r.2.findSome? (Invocations.System.jobFor w)).or (s.job w)⟩ := by
    unfold Pool.step
    rw [if_pos (show s.MaySend .schedule from trivial)]
    show (s.ctl.schedule >>= _) = _
    rw [hr]
    rfl
  refine ⟨_, inv_step h hstep, ⟨r.2, hr⟩, hrest, hidle', fun k hk => ?_⟩
  have hne : k ≠ key := by
    rintro rfl
    have hnodup := h.sound.nodup
    rw [hpending] at hnodup
    exact (List.nodup_cons.1 hnodup).1 hk
  unfold Fits
  rw [hothers k hne]

/-- A round that cannot send the first pending invocation raises. -/
theorem schedule_raises (h : Inv s) {rest : List Str}
    (hidle : s.ctl.workers.hasIdleWorkers = true)
    (hpending : s.ctl.workQueue.pendingInvocations = key :: rest) (hfits : ¬ Fits s.ctl key) :
    ∃ f, s.ctl.schedule = .error f := by
  have hnext := next_cons h hpending
  rcases WorkQueue.next_some hnext with ⟨-, -, i, -, -, hi⟩
  have hlarge : TABLE_LENGTH < i.payload.length := by
    by_contra hlen
    refine hfits fun j hj => ?_
    obtain rfl := Option.some.inj (hi.symm.trans hj)
    exact not_lt.1 hlen
  rcases submit_error s.ctl.workers hlarge with ⟨f, hf⟩
  refine ⟨f, ?_⟩
  unfold Controller.schedule
  rw [if_pos hidle, hnext]
  dsimp only
  rw [hi]
  dsimp only
  rw [hf]
  rfl

/-- Nothing to do. -/
theorem loop_idle {c : Controller} (h : c.schedule = .ok (c, [])) (rounds : ℕ) :
    loop rounds c = .ok c := by
  induction rounds with
  | zero => rfl
  | succ rounds ih =>
    unfold loop
    rw [h]
    exact ih

/-- The loop raises unless the invocations that it comes to all fit. -/
theorem loop_iff (h : Inv s) :
    (∀ rounds, Lts.Returns (loop rounds s.ctl)) ↔
      ∀ key ∈ s.ctl.workQueue.pendingInvocations.take s.ctl.workers.idleWorkers,
        Fits s.ctl key := by
  generalize hpending : s.ctl.workQueue.pendingInvocations = pending
  induction pending generalizing s with
  | nil =>
    have hnone : s.ctl.schedule = .ok (s.ctl, []) := by
      unfold Controller.schedule WorkQueue.next
      rw [hpending]
      split_ifs <;> rfl
    refine iff_of_true (fun rounds => ⟨s.ctl, loop_idle hnone rounds⟩) ?_
    intro key hkey
    rw [List.take_nil] at hkey
    cases hkey
  | cons key rest ih =>
    by_cases hidle : s.ctl.workers.hasIdleWorkers = true
    · have hpos : 0 < s.ctl.workers.idleWorkers := of_decide_eq_true hidle
      obtain ⟨idle, hcount⟩ : ∃ idle, s.ctl.workers.idleWorkers = idle + 1 :=
        ⟨_, (Nat.succ_pred_eq_of_pos hpos).symm⟩
      rw [hcount, List.take_succ_cons]
      by_cases hfits : Fits s.ctl key
      · -- a round takes the first invocation and one of the idle workers
        rcases schedule_fits h hidle hpending hfits with
          ⟨t, ht, ⟨outs, hschedule⟩, hrest, hidle', hothers⟩
        have hloop : ∀ rounds, loop (rounds + 1) s.ctl = loop rounds t.ctl := by
          intro rounds
          rw [loop, hschedule]
          rfl
        have htail : (∀ rounds, Lts.Returns (loop rounds t.ctl)) ↔
            ∀ k ∈ rest.take idle, Fits t.ctl k := by
          have hih := ih ht hrest
          rwa [hidle', hcount, Nat.add_sub_cancel] at hih
        constructor
        · intro hreturns k hk
          rcases List.mem_cons.1 hk with rfl | hk
          · exact hfits
          · refine (hothers k (List.mem_of_mem_take hk)).1 (htail.1 ?_ k hk)
            intro rounds
            rw [← hloop]
            exact hreturns (rounds + 1)
        · intro hall rounds
          cases rounds with
          | zero => exact ⟨s.ctl, rfl⟩
          | succ rounds =>
            rw [hloop]
            refine htail.2 (fun k hk => ?_) rounds
            exact (hothers k (List.mem_of_mem_take hk)).2 (hall k (List.mem_cons_of_mem _ hk))
      · rcases schedule_raises h hidle hpending hfits with ⟨f, hf⟩
        constructor
        · intro hreturns
          rcases hreturns 1 with ⟨c, hc⟩
          rw [loop, hf] at hc
          cases hc
        · intro hall
          exact absurd (hall key List.mem_cons_self) hfits
    · have hnone : s.ctl.schedule = .ok (s.ctl, []) := if_neg hidle
      have hzero : s.ctl.workers.idleWorkers = 0 := by
        by_contra hpos
        exact hidle (decide_eq_true (Nat.pos_of_ne_zero hpos))
      rw [hzero, List.take_zero]
      exact iff_of_true (fun rounds => ⟨s.ctl, loop_idle hnone rounds⟩) (fun k hk => by cases hk)

/-- For every state of every run: what `next` returns is dispatched all or not at all if and
only if its buffers fit the header and `mq_send` succeeds; and the loop raises nowhere if and
only if the buffers fit of each invocation that it comes to, as many as there are idle
workers. -/
theorem dispatch_iff (processId : Str) (functionWorkers : ℕ) (functions : Str → Option Trigger)
    (es : List Controller.Input)
    (hrun : Lts.run Pool.step (Pool.new processId functionWorkers functions) es = .ok s) :
    (s.ctl.workers.hasIdleWorkers = true → ∀ key q sent, s.ctl.workQueue.next = (some key, q) →
      (Holds s.ctl key (attempt s.ctl sent) ↔ sent = true ∧ Fits s.ctl key)) ∧
    ((∀ rounds, Lts.Returns (loop rounds s.ctl)) ↔
      ∀ key ∈ s.ctl.workQueue.pendingInvocations.take s.ctl.workers.idleWorkers,
        Fits s.ctl key) :=
  ⟨fun hidle _ _ sent hnext => attempt_iff (inv_run hrun) hidle hnext sent,
    loop_iff (inv_run hrun)⟩

end Reachable

/-- Two payloads for the same key. -/
theorem two_buffers_dispatched :
    ∃ s, Lts.run Pool.step (Pool.new (str ['p']) 1 fun _ => some .direct)
        [WorkerPool.sampleRequest, WorkerPool.sampleRequest] = .ok s ∧
      Holds s.ctl [] (attempt s.ctl true) ∧ ∀ rounds, Lts.Returns (loop rounds s.ctl) := by
  have hrun := Lts.run_test Pool.step (Pool.new (str ['p']) 1 fun _ => some .direct)
    [WorkerPool.sampleRequest, WorkerPool.sampleRequest]
    (fun s => s.ctl.workers.hasIdleWorkers = true ∧ s.ctl.workQueue.next.1 = some [] ∧
      s.ctl.workQueue.pendingInvocations = [[]] ∧
      ∀ i ∈ s.ctl.workQueue.activeInvocations [], i.payload.length ≤ TABLE_LENGTH)
    (by decide +kernel)
  rcases hrun with ⟨s, hs, hidle, hnext, hpending, hfits⟩
  have hiff := dispatch_iff _ _ _ _ hs
  refine ⟨s, hs, ?_, ?_⟩
  · exact (hiff.1 hidle [] s.ctl.workQueue.next.2 true (Prod.ext hnext rfl)).2 ⟨rfl, hfits⟩
  · refine hiff.2.2 fun key hkey => ?_
    have hmem := List.mem_of_mem_take hkey
    rw [hpending] at hmem
    obtain rfl := List.mem_singleton.1 hmem
    exact hfits

/-- Fourteen payloads are accepted for one key; the dispatch raises, and the invocation is no
longer in the queue. -/
theorem fourteen_buffers_lost :
    ∃ s, Lts.run Pool.step (Pool.new (str ['p']) 1 fun _ => some .direct)
        (List.replicate 14 WorkerPool.sampleRequest) = .ok s ∧
      s.ctl.workQueue.next.1 = some [] ∧
      (attempt s.ctl true).ctl.workQueue.pendingInvocations = [] ∧
      ¬ Holds s.ctl [] (attempt s.ctl true) ∧ ¬ Lts.Returns (loop 1 s.ctl) := by
  have hrun := Lts.run_test Pool.step (Pool.new (str ['p']) 1 fun _ => some .direct)
    (List.replicate 14 WorkerPool.sampleRequest)
    (fun s => s.ctl.workQueue.next.1 = some [] ∧ (attempt s.ctl true).raised = true ∧
      (attempt s.ctl true).ctl.workQueue.pendingInvocations = [] ∧ ¬ Lts.Returns (loop 1 s.ctl))
    (by decide +kernel)
  rcases hrun with ⟨s, hs, hnext, hraised, hpending, hloop⟩
  refine ⟨s, hs, hnext, hpending, ?_, hloop⟩
  rintro (⟨hfine, -⟩ | ⟨-, -, hmem, -⟩)
  · rw [hraised] at hfine
    cases hfine
  · rw [hpending] at hmem
    cases hmem

end Praas.Process.AllOrNothing
