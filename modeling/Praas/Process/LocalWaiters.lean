import Praas.Process.RemoteReplies

/-! # Results for workers that wait

A worker that calls `invoke` is stored as waiting before the work queue decides
about its request, and a rejection wakes every worker that is stored for the id:
* `waiters_wake`, `account_wake` — waking an id reaches the workers that wait for
  it, each once;
* `waited_effect` — as long as no id is called whose invocation runs for another
  worker or waits for a remote source, a worker waits only while its payload is in
  the invocation of its id;
* `every_waiter_woken_once` — so every call gets one result, that of the
  execution with its payload or its own rejection.
-/

namespace Praas.Process.Invocations

open Ipc (Text ID_LENGTH)

/-- The worker was blocked in this call, and the result is its own: that of an
execution with its payload, or the rejection of its request. -/
inductive Woken : Delivery → Prop
  | executed (w : ℕ) (call : Call) (j : Job) (returnCode : Int) (output : Buffer)
      (named : j.id = call.id) (included : call.payload ∈ j.payloads) :
      Woken ⟨w, some call, call.id, returnCode, output, .executed j returnCode output⟩
  | rejected (w : ℕ) (call : Call) (message : Buffer) :
      Woken ⟨w, some call, call.id, -1, message, .rejected (some w) call.payload⟩

/-- If an invocation runs under the id that is called, no worker is stored for it;
if one waits, it was called for by a worker; and what is dispatched fits the
header. -/
def Unshared (s : System) (e : Event) : Prop :=
  match e with
  | .invoke _ req _ _ => ∀ i ∈ s.ctl.workQueue.activeInvocations req.invocationId.1,
      if i.active = true then ∀ p ∈ s.ctl.pendingMsgs, p.1 ≠ req.invocationId.1
      else i.source.isRemote = false
  | e => Fits s e

instance (s : System) (e : Event) : Decidable (Unshared s e) :=
  match e with
  | .invoke _ _ _ _ => inferInstanceAs (Decidable (∀ _ ∈ _, _))
  | .request _ _ _ => inferInstanceAs (Decidable True)
  | .schedule => inferInstanceAs (Decidable (_ → _))
  | .result _ _ _ => inferInstanceAs (Decidable True)

/-! ## The table of waiting workers -/

/-- The table holds the workers that are blocked, each once and under the id it
called. -/
structure Waiters (pending : PendingMessages) (waiting : ℕ → Option Call) : Prop where
  nodup : (pending.map (·.2.worker)).Nodup
  stored : ∀ p ∈ pending, ∃ call, waiting p.2.worker = some call ∧ call.id.1 = p.1
  waits : ∀ w call, waiting w = some call → ∃ p ∈ pending, p.2.worker = w

variable {pending : PendingMessages} {waiting : ℕ → Option Call}

/-- The workers found under an id are those that wait for it. -/
theorem Waiters.mem_found (h : Waiters pending waiting) {id : Text ID_LENGTH} {w : ℕ} :
    w ∈ (pending.findInvocation id.1).1 ↔ ∃ call, waiting w = some call ∧ call.id = id := by
  unfold PendingMessages.findInvocation
  simp only [List.mem_map, List.mem_filter, decide_eq_true_eq]
  constructor
  · rintro ⟨p, ⟨hp, hid⟩, rfl⟩
    rcases h.stored p hp with ⟨call, hcall, hname⟩
    exact ⟨call, hcall, Subtype.ext (hname.trans hid)⟩
  · rintro ⟨call, hcall, rfl⟩
    rcases h.waits w call hcall with ⟨p, hp, rfl⟩
    rcases h.stored p hp with ⟨call', hcall', hname⟩
    obtain rfl : call = call' := by simpa [hcall] using hcall'
    exact ⟨p, ⟨hp, hname.symm⟩, rfl⟩

theorem Waiters.nodup_found (h : Waiters pending waiting) (key : Str) :
    (pending.findInvocation key).1.Nodup :=
  h.nodup.sublist (List.filter_sublist.map _)

/-- The workers found are taken out, and no longer wait. -/
theorem waiters_wake (h : Waiters pending waiting) (id : Text ID_LENGTH) :
    Waiters (pending.findInvocation id.1).2
      (fun w => if w ∈ (pending.findInvocation id.1).1 then none else waiting w) := by
  have hout : ∀ p ∈ pending, p.1 ≠ id.1 → p.2.worker ∉ (pending.findInvocation id.1).1 := by
    intro p hp hne hfound
    rcases h.mem_found.1 hfound with ⟨call, hcall, rfl⟩
    rcases h.stored p hp with ⟨call', hcall', hname⟩
    obtain rfl : call = call' := by simpa [hcall] using hcall'
    exact hne hname.symm
  refine ⟨h.nodup.sublist (List.filter_sublist.map _), ?_, ?_⟩
  · intro p hp
    have hmem := List.mem_filter.1 hp
    have hne : p.1 ≠ id.1 := by simpa using hmem.2
    rw [if_neg (hout p hmem.1 hne)]
    exact h.stored p hmem.1
  · intro w call hw
    split at hw
    · cases hw
    · rename_i hfound
      rcases h.waits w call hw with ⟨p, hp, rfl⟩
      refine ⟨p, List.mem_filter.2 ⟨hp, ?_⟩, rfl⟩
      rcases h.stored p hp with ⟨call', hcall', hname⟩
      simp only [ne_eq, decide_not, Bool.not_eq_true', decide_eq_false_iff_not]
      intro heq
      exact hfound (h.mem_found.2 ⟨call', hcall', Subtype.ext (hname.trans heq)⟩)

/-- A worker that did not wait is stored. -/
theorem waiters_block (h : Waiters pending waiting) {w : ℕ} (call : Call) (slot : ℕ)
    (free : waiting w = none) :
    Waiters (pending.insertInvocation slot call.id.1 w)
      (Function.update waiting w (some call)) := by
  have hperm : (pending.insertInvocation slot call.id.1 w).Perm
      ((call.id.1, ⟨.invocation, some [], w⟩) :: pending) := by
    have hmid : (pending.insertInvocation slot call.id.1 w).Perm
        ((call.id.1, ⟨.invocation, some [], w⟩) :: (pending.take slot ++ pending.drop slot)) :=
      List.perm_middle
    rwa [List.take_append_drop] at hmid
  have hother : ∀ p ∈ pending, p.2.worker ≠ w := by
    rintro p hp rfl
    rcases h.stored p hp with ⟨call', hcall', -⟩
    simp [free] at hcall'
  refine ⟨?_, ?_, ?_⟩
  · rw [(hperm.map (·.2.worker)).nodup_iff]
    refine List.nodup_cons.2 ⟨?_, h.nodup⟩
    intro hw
    rcases List.mem_map.1 hw with ⟨p, hp, hpw⟩
    exact hother p hp hpw
  · intro p hp
    rcases List.mem_cons.1 (hperm.mem_iff.1 hp) with rfl | hp
    · exact ⟨call, by simp, rfl⟩
    · simpa [hother p hp] using h.stored p hp
  · intro v c hv
    rcases eq_or_ne v w with rfl | hne
    · exact ⟨_, hperm.mem_iff.2 List.mem_cons_self, rfl⟩
    · rcases h.waits v c (by simpa [hne] using hv) with ⟨p, hp, hpv⟩
      exact ⟨p, hperm.mem_iff.2 (List.mem_cons_of_mem _ hp), hpv⟩

/-! ## The account of calls -/

/-- Each call was answered once, or its worker is blocked in it. -/
def CallsAnswered (s : System) : Prop :=
  ∀ w call, s.calls.count (w, call) =
    (s.delivered.map fun d => (d.worker, d.call)).count (w, some call) +
      if s.waiting w = some call then 1 else 0

theorem account_block {s : System} (h : CallsAnswered s) {w : ℕ} (call : Call) (slot : ℕ)
    (free : s.waiting w = none) : CallsAnswered (s.block w call slot) := by
  intro v c
  have hold := h v c
  rcases eq_or_ne v w with rfl | hne
  · simp [System.block, List.count_singleton, free] at hold ⊢
    omega
  · simp [System.block, hne, hne.symm] at hold ⊢
    exact hold

theorem account_wake {s : System} (h : CallsAnswered s) (hw : Waiters s.ctl.pendingMsgs s.waiting)
    (id : Text ID_LENGTH) (returnCode : Int) (payload : Buffer) (basis : Basis) :
    CallsAnswered (s.wake id returnCode payload basis) := by
  intro w call
  have hold := h w call
  have hnew := Lists.count_graph (hw.nodup_found id.1) s.waiting w (some call)
  have hmap : (s.wake id returnCode payload basis).delivered.map (fun d => (d.worker, d.call)) =
      s.delivered.map (fun d => (d.worker, d.call)) ++
        (s.ctl.pendingMsgs.findInvocation id.1).1.map fun v => (v, s.waiting v) := by
    simp [System.wake]
  rw [hmap, List.count_append, hnew]
  show s.calls.count (w, call) = _
  rw [hold]
  show _ = _ + if (if w ∈ (s.ctl.pendingMsgs.findInvocation id.1).1 then none
    else s.waiting w) = some call then 1 else 0
  by_cases hfound : w ∈ (s.ctl.pendingMsgs.findInvocation id.1).1
  · simp [hfound]
  · simp [hfound]

/-! ## The payload of a blocked call -/

/-- The payload of every blocked call is in the invocation of its id, whose result
goes to workers. -/
def Queued (table : Table) (waiting : ℕ → Option Call) : Prop :=
  ∀ w call, waiting w = some call → ∃ i, table call.id.1 = some i ∧
    i.source.isRemote = false ∧ call.payload ∈ i.payload

theorem queued_takes {q q' : WorkQueue} {key : Str} {payload : Buffer}
    {source : InvocationSource} (h : Queued q.activeInvocations waiting)
    (takes : Takes q key payload source q') : Queued q'.activeInvocations waiting := by
  intro w call hw
  rcases h w call hw with ⟨i, hi, hlocal, hmem⟩
  cases takes with
  | merged x found waits =>
    rcases eq_or_ne call.id.1 key with heq | hne
    · obtain rfl : i = x := by simpa [heq, found] using hi.symm
      exact ⟨i.push payload, by simp [heq], hlocal, by simp [hmem]⟩
    · exact ⟨i, by simpa [hne] using hi, hlocal, hmem⟩
  | created x free named waits payloads from_source =>
    have hne : call.id.1 ≠ key := by
      intro heq
      simp [heq, free] at hi
    exact ⟨i, by simpa [hne] using hi, hlocal, hmem⟩

/-- A call whose payload is taken in, into an invocation that is not remote. -/
theorem queued_invoke {q q' : WorkQueue} {w : ℕ} (call : Call)
    (h : Queued q.activeInvocations waiting)
    (hlocal : ∀ i ∈ q.activeInvocations call.id.1, i.active = false → i.source.isRemote = false)
    (takes : Takes q call.id.1 call.payload InvocationSource.fromLocal q') :
    Queued q'.activeInvocations (Function.update waiting w (some call)) := by
  intro v c hv
  rcases eq_or_ne v w with rfl | hne
  · obtain rfl : call = c := by simpa using hv
    cases takes with
    | merged i found waits =>
      exact ⟨i.push call.payload, by simp, hlocal i (by simp [found]) waits, by simp⟩
    | created i free named waits payloads from_source =>
      exact ⟨i, by simp, by rw [from_source]; rfl, by simp [payloads]⟩
  · exact queued_takes h takes v c (by simpa [hne] using hv)

/-! ## One step -/

/-- Each blocked worker is stored and its payload queued; each result was its
receiver's own, and each call is answered once or blocked. -/
structure Waited (s : System) : Prop where
  sound : s.Sound
  waiters : Waiters s.ctl.pendingMsgs s.waiting
  queued : Queued s.ctl.workQueue.activeInvocations s.waiting
  woken : ∀ d ∈ s.delivered, Woken d
  answered : CallsAnswered s

theorem waited_new (processId : Str) (n : ℕ) (functions : Str → Option Trigger) :
    Waited (System.new (Controller.new processId n functions)) where
  sound := sound_new functions n
  waiters := ⟨List.nodup_nil, fun p hp => (List.not_mem_nil hp).elim, fun w call h => nomatch h⟩
  queued w call h := by cases h
  woken d h := by cases h
  answered w call := by simp [System.new]

variable {s s' : System}

/-- What the results of an id that all its waiters may receive do. -/
theorem woken_wake (h : ∀ d ∈ s.delivered, Woken d) (hw : Waiters s.ctl.pendingMsgs s.waiting)
    (id : Text ID_LENGTH) (returnCode : Int) (payload : Buffer) (basis : Basis)
    (hown : ∀ w call, s.waiting w = some call → call.id = id →
      Woken ⟨w, some call, id, returnCode, payload, basis⟩) :
    ∀ d ∈ (s.wake id returnCode payload basis).delivered, Woken d := by
  intro d hd
  rcases List.mem_append.1 hd with hd | hd
  · exact h d hd
  · rcases List.mem_map.1 hd with ⟨w, hfound, rfl⟩
    rcases hw.mem_found.1 hfound with ⟨call, hcall, hid⟩
    rw [hcall]
    exact hown w call hcall hid

/-- A worker that still waits after an id was woken was not found under it. -/
theorem woken_waiting {id : Text ID_LENGTH} {returnCode : Int} {payload : Buffer} {basis : Basis}
    {w : ℕ} {call : Call} (h : (s.wake id returnCode payload basis).waiting w = some call) :
    w ∉ (s.ctl.pendingMsgs.findInvocation id.1).1 ∧ s.waiting w = some call := by
  have hif : (if w ∈ (s.ctl.pendingMsgs.findInvocation id.1).1 then none else s.waiting w) =
    some call := h
  split at hif
  · cases hif
  · exact ⟨‹_›, hif⟩

theorem waited_effect {e : Event} (h : Waited s) (hc : Unshared s e) (heff : Effect s e s') :
    Waited s' := by
  have hsound := sound_effect h.sound heff
  cases heff with
  | requested takes =>
    exact ⟨hsound, h.waiters, queued_takes h.queued takes, h.woken, h.answered⟩
  | refused refuses => exact ⟨hsound, h.waiters, h.queued, h.woken, h.answered⟩
  | @invoked w req payload env q runs takes =>
    have hfree : s.waiting w = none := by simpa using runs.2
    have hlocal : ∀ i ∈ s.ctl.workQueue.activeInvocations req.invocationId.1,
        i.active = false → i.source.isRemote = false := by
      intro i hi hwaits
      simpa [hwaits] using hc i hi
    exact ⟨hsound, waiters_block h.waiters ⟨req.invocationId, payload⟩ env.slot hfree,
      queued_invoke ⟨req.invocationId, payload⟩ h.queued hlocal takes, h.woken,
      account_block h.answered ⟨req.invocationId, payload⟩ env.slot hfree⟩
  | @invokeRefused w req payload message env runs refuses =>
    have hfree : s.waiting w = none := by simpa using runs.2
    have hblock := waiters_block h.waiters ⟨req.invocationId, payload⟩ env.slot hfree
    -- no worker waits for the id: there is no invocation, or it runs for others
    have halone : ∀ v call, s.waiting v = some call → call.id ≠ req.invocationId := by
      intro v call hv hid
      rcases refuses with hnone | ⟨i, hi, hactive⟩
      · rcases h.queued v call hv with ⟨i, hi, -⟩
        rw [hid, hnone] at hi
        cases hi
      · have hnobody := hc i hi
        rw [if_pos hactive] at hnobody
        rcases h.waiters.waits v call hv with ⟨p, hp, rfl⟩
        rcases h.waiters.stored p hp with ⟨call', hcall', hname⟩
        obtain rfl : call = call' := by simpa [hv] using hcall'
        exact hnobody p hp (by rw [← hname, hid])
    refine ⟨hsound, waiters_wake hblock req.invocationId, ?_, ?_, ?_⟩
    · intro v call hv
      rcases woken_waiting hv with ⟨hout, hv⟩
      rcases eq_or_ne v w with rfl | hne
      · exact absurd (hblock.mem_found.2 ⟨⟨req.invocationId, payload⟩, by simp, rfl⟩) hout
      · exact h.queued v call (by simpa [System.block, hne] using hv)
    · apply woken_wake (s := s.block w ⟨req.invocationId, payload⟩ env.slot) h.woken hblock
      intro v call hv hid
      rcases eq_or_ne v w with rfl | hne
      · obtain rfl : ⟨req.invocationId, payload⟩ = call := by
          simpa [System.block] using hv
        exact .rejected v ⟨req.invocationId, payload⟩ message
      · have hv' : s.waiting v = some call := by simpa [System.block, hne] using hv
        exact absurd hid (halone v call hv')
    · exact account_wake (account_block h.answered _ env.slot hfree) hblock _ _ _ _
  | invokeSkipped => exact h
  | @submitted before after key i w buffers pending found free =>
    refine ⟨hsound, h.waiters, ?_, h.woken, h.answered⟩
    intro v call hv
    rcases h.queued v call hv with ⟨x, hx, hlocal, hmem⟩
    by_cases hid : call.id.1 = key
    · obtain rfl : i = x := by simpa [hid, found] using hx
      exact ⟨{ i with req := { i.req with buffers := buffers }, active := true },
        by rw [hid]; exact Function.update_self .., hlocal, hmem⟩
    · exact ⟨x, (Function.update_of_ne hid ..).trans hx, hlocal, hmem⟩
  | scheduleSkipped => exact h
  | @answeredRemote w j i returnCode output runs job found active remote =>
    refine ⟨hsound, h.waiters, ?_, h.woken, h.answered⟩
    intro v call hv
    rcases h.queued v call hv with ⟨x, hx, hlocal, hmem⟩
    have hne : call.id.1 ≠ j.id.1 := by
      intro heq
      obtain rfl : i = x := by simpa [heq, found] using hx
      rw [remote] at hlocal
      cases hlocal
    exact ⟨x, (Function.update_of_ne hne ..).trans hx, hlocal, hmem⟩
  | @answeredLocal w j i returnCode output runs job found active local_source =>
    refine ⟨hsound, waiters_wake h.waiters j.id, ?_, ?_,
      account_wake (s := s.release w j) h.answered h.waiters _ _ _ _⟩
    · intro v call hv
      rcases woken_waiting hv with ⟨hout, hv⟩
      rcases h.queued v call hv with ⟨x, hx, hlocal, hmem⟩
      have hne : call.id.1 ≠ j.id.1 := fun heq =>
        hout (h.waiters.mem_found.2 ⟨call, hv, Subtype.ext heq⟩)
      exact ⟨x, (Function.update_of_ne hne ..).trans hx, hlocal, hmem⟩
    · apply woken_wake (s := s.release w j) h.woken h.waiters
      intro v call hv hid
      rcases h.queued v call hv with ⟨x, hx, -, hmem⟩
      rcases (h.sound.running w j job).2 with ⟨y, hy, -, hpayloads⟩
      obtain rfl : i = x := by simpa [hid, found] using hx
      obtain rfl : i = y := by simpa [found] using hy
      rw [← hid]
      exact .executed v call j returnCode output hid.symm (hpayloads ▸ hmem)
  | resultSkipped => exact h

theorem waited_step {s : System} {e : Event} (h : Waited s) (hc : Unshared s e) :
    ∃ s', s.step e = .ok s' ∧ Waited s' := by
  have hfits : Fits s e := by
    cases e with
    | schedule => exact hc
    | request peer msg payload => trivial
    | invoke w req payload env => trivial
    | result w returnCode output => trivial
  rcases step_effect h.sound e hfits with ⟨s', hs', heff⟩
  exact ⟨s', hs', waited_effect h hc heff⟩

/-! ## Whole runs -/

/-- In a run in which no id is called whose invocation runs for another worker or
waits for a remote source, and what is dispatched fits its header, no step raises;
a result only reaches a worker that is blocked, and is its own; each call is answered once, unless its
worker is still blocked in it, and then its payload is in an invocation that
waits or runs; and once the work queue has drained no worker is blocked. -/
theorem every_waiter_woken_once (processId : Str) (n : ℕ) (functions : Str → Option Trigger)
    (es : List Event)
    (hes : Lts.Meets System.step Unshared
      (System.new (Controller.new processId n functions)) es) :
    ∃ s, Lts.run System.step (System.new (Controller.new processId n functions)) es = .ok s ∧
      (∀ d ∈ s.delivered, Woken d) ∧ CallsAnswered s ∧
      Queued s.ctl.workQueue.activeInvocations s.waiting ∧
      (Drained s → ∀ w, s.waiting w = none) := by
  rcases Lts.run_keeps (fun _ _ h hc => waited_step h hc) (waited_new processId n functions)
    hes with ⟨s, hrun, hwaited⟩
  refine ⟨s, hrun, hwaited.woken, hwaited.answered, hwaited.queued, fun hdrained w => ?_⟩
  by_contra hne
  rcases Option.ne_none_iff_exists'.1 hne with ⟨call, hcall⟩
  rcases hwaited.queued w call hcall with ⟨i, hi, -⟩
  simp [drained_table hwaited.sound hdrained call.id.1] at hi

/-! ### Two workers that call one id -/

def selfRequest (fname id : Str)
    (h : (fname.length ≤ 32 ∧ (0 : Byte) ∉ fname) ∧ id.length ≤ 16 ∧ (0 : Byte) ∉ id := by
      decide) : Ipc.InvocationRequestParsed where
  processId := ⟨SELF_PROCESS, by decide⟩
  invocationId := ⟨id, h.2⟩
  functionName := ⟨fname, h.1⟩

/-- A controller with three workers, whose functions are all known. -/
def threeWorkers : System := System.new (Controller.new (str ['p']) 3 fun _ => some .direct)

/-- Two functions run that were requested from outside. -/
def twoRunning : List Event :=
  [.request .dataPlane (requestHeader (str ['a'])) [1], .schedule,
    .request .dataPlane (requestHeader (str ['b'])) [2], .schedule]

theorem merged_calls_woken :
    ∃ s, Lts.run System.step threeWorkers
        (twoRunning ++ [.invoke 0 (selfRequest (str ['f']) (str ['x'])) [3] {},
          .invoke 1 (selfRequest (str ['f']) (str ['x'])) [4] {}, .schedule,
          .result 2 0 [5]]) = .ok s ∧
      (∀ d ∈ s.delivered, Woken d) ∧ CallsAnswered s ∧
      Queued s.ctl.workQueue.activeInvocations s.waiting ∧
      (Drained s → ∀ w, s.waiting w = none) :=
  every_waiter_woken_once _ _ _ _ (by decide +kernel)

/-- While the invocation `x` that the first worker called runs, the second calls
`x`: the rejection of its request also wakes the first, whose payload was not
rejected, and the result that comes later reaches nobody. -/
theorem rejection_wakes_all :
    ∃ s, Lts.run System.step threeWorkers
        (twoRunning ++ [.invoke 0 (selfRequest (str ['f']) (str ['x'])) [3] {}, .schedule,
          .invoke 1 (selfRequest (str ['f']) (str ['x'])) [4] {}, .result 2 0 [5]]) = .ok s ∧
      (∃ d ∈ s.delivered, d.worker = 0 ∧ d.call = some ⟨⟨str ['x'], by decide⟩, [3]⟩ ∧
        d.basis = .rejected (some 1) [4]) ∧
      ∀ d ∈ s.delivered, d.payload ≠ [5] :=
  Lts.run_test _ _ _ _ (by decide +kernel)

end Praas.Process.Invocations
