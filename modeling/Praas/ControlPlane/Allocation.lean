import Praas.ControlPlane.Places

/-! # Allocations that fail

When the backend reports an error, the callback of the allocation takes back what
`add_process` did. `TCPServer::remove_process` is not implemented, and
`get_controlplane_process` does not call it, so that the process stays among those
that are expected to connect.
* `allocation_leaves_no_trace` — nothing is left exactly when the process has
  connected before, and its entry is still in the active table.
-/

namespace Praas.ControlPlane

/-- The state without the entries of a process. -/
def State.forget (s : State) (p : ProcId) : State :=
  { s with
    apps := fun a => {
      activeProcesses := fun name => (s.apps a).activeProcesses name |>.filter (· ≠ p)
      swappedProcesses := fun name => (s.apps a).swappedProcesses name |>.filter (· ≠ p)
      controlplaneProcesses := (s.apps a).controlplaneProcesses.filter (· ≠ p) }
    allocations := Function.update s.allocations p none
    tasks := s.tasks.filter (· ≠ p)
    pendingProcesses := fun name => (s.pendingProcesses name).filter (· ≠ p) }

/-- The server can insert a process of this name. -/
def Free (s : State) (name : Str) : Prop :=
  s.pendingProcesses name = none ∧ ∀ q ∈ s.tasks, (s.procs q).name ≠ name

/-- A process can be created under this name. -/
def Creates (b : Backend) (s : State) (a : AppId) (name : Str) (resources : Resources) : Prop :=
  (∃ t, s.addProcess b a name resources true = .ok t) ∧ Free s name

/-- The allocation of `p` in `s` has left nothing in `t`: `p` is in no table, all the
others are where they were, and a name is free as if there had been no `p`. -/
structure NoTrace (b : Backend) (s : State) (p : ProcId) (t : State) : Prop where
  gone : ∀ pl, t.At pl p → ∃ c, pl = .connection c
  others : ∀ pl q, q ≠ p → (t.At pl q ↔ s.At pl q)
  processes : ∀ q, q ≠ p → t.procs q = s.procs q
  free : ∀ name, Free t name ↔ Free (s.forget p) name
  creates : ∀ a name resources,
    Creates b t a name resources ↔ Creates b (s.forget p) a name resources

theorem addProcess_isOk {b : Backend} {s : State} {a : AppId} {name : Str} {resources : Resources}
    {wait : Bool} : (∃ t, s.addProcess b a name resources wait = .ok t) ↔
      name ≠ [] ∧ b.rejects resources = none ∧ (s.apps a).activeProcesses name = none := by
  constructor
  · rintro ⟨t, ht⟩
    rcases addProcess_ok ht with ⟨hname, hresources, hactive, -⟩
    exact ⟨hname, hresources, hactive⟩
  · rintro ⟨hname, hresources, hactive⟩
    have hlength : ¬ name.length = 0 := fun h => hname (List.length_eq_zero_iff.1 h)
    simp [State.addProcess, hlength, hresources, hactive]

section NoTrace

variable {b : Backend} {s t : State} {p : ProcId}

/-- A place of the state without `p`. -/
theorem at_forget {k : Place} {q : ProcId} (hpl : ∀ c, k ≠ .connection c) :
    (s.forget p).At k q ↔ s.At k q ∧ q ≠ p := by
  cases k with
  | connection c => exact absurd rfl (hpl c)
  | allocation =>
    by_cases hqp : q = p
    · subst hqp
      simp [State.At, State.forget]
    · simp [State.At, State.forget, hqp]
  | _ => simp [State.At, State.forget, Option.filter_eq_some_iff]

/-- What is read when a process is created depends on the places. -/
theorem noTrace_of (hgone : ∀ pl, t.At pl p → ∃ c, pl = .connection c)
    (hothers : ∀ pl q, q ≠ p → (t.At pl q ↔ s.At pl q))
    (hprocs : ∀ q, q ≠ p → t.procs q = s.procs q) : NoTrace b s p t := by
  have hat : ∀ pl, (∀ c, pl ≠ .connection c) → ∀ q, t.At pl q ↔ (s.forget p).At pl q := by
    intro pl hpl q
    rw [at_forget hpl]
    by_cases hqp : q = p
    · subst hqp
      constructor
      · intro hq
        rcases hgone pl hq with ⟨c, hc⟩
        exact absurd hc (hpl c)
      · intro hq
        exact absurd rfl hq.2
    · rw [hothers pl q hqp]
      exact ⟨fun hq => ⟨hq, hqp⟩, fun hq => hq.1⟩
  -- a name is free if nothing is pending under it and no task has it
  have hfree : ∀ name, Free t name ↔ Free (s.forget p) name := by
    intro name
    have hpending : t.pendingProcesses name = (s.forget p).pendingProcesses name :=
      Option.ext fun q => hat (.pending name) (by simp) q
    unfold Free
    rw [hpending]
    refine and_congr_right fun _ => ?_
    constructor
    · intro hnames q hq
      have hold := (at_forget (k := .task) (by simp)).1 hq
      have hname := hnames q ((hat .task (by simp) q).2 hq)
      rwa [hprocs q hold.2] at hname
    · intro hnames q hq
      have hnew := (hat .task (by simp) q).1 hq
      have hold := (at_forget (k := .task) (by simp)).1 hnew
      rw [hprocs q hold.2]
      exact hnames q hnew
  refine ⟨hgone, hothers, hprocs, hfree, fun a name resources => ?_⟩
  have hactive : (t.apps a).activeProcesses name = ((s.forget p).apps a).activeProcesses name :=
    Option.ext fun q => hat (.active a name) (by simp) q
  unfold Creates
  rw [addProcess_isOk, addProcess_isOk, hfree name, hactive]

end NoTrace

/-! ## The callback of a failed allocation -/

section Failure

variable {b : Backend} {s t : State} {p : ProcId} {o : Origin} {error : Str}

theorem step_allocationFailed (ho : s.allocations p = some o) :
    s.step b (.allocationFailed p error) =
      { s with allocations := Function.update s.allocations p none }.allocationFailed p o error := by
  simp only [State.step, ho]

theorem at_takeAllocation {k : Place} {q : ProcId} :
    { s with allocations := Function.update s.allocations p none }.At k q ↔
      s.At k q ∧ ¬ (k = .allocation ∧ q = p) := by
  cases k with
  | allocation =>
    by_cases hqp : q = p
    · subst hqp
      simp [State.At]
    · simp [State.At, hqp]
  | _ => simp [State.At]

/-- The places after the callback, if it finds its entry. -/
theorem at_allocationFailed (ho : s.allocations p = some o)
    (hstep : s.step b (.allocationFailed p error) = .ok t) (pl : Place) (q : ProcId) :
    t.At pl q ↔ s.At pl q ∧ ¬ (pl = .allocation ∧ q = p) ∧
      (o = .user → pl ≠ .active (s.procs p).application (s.procs p).name) := by
  rw [step_allocationFailed ho] at hstep
  have hat := at_takeAllocation (s := s) (p := p) (k := pl) (q := q)
  rcases allocationFailed_ok hstep with ⟨rfl, -, rfl⟩ | ⟨rfl, rfl⟩
  · rw [at_setActive]
    constructor
    · rintro (⟨-, hnone⟩ | ⟨hne, hq⟩)
      · cases hnone
      · have hq' := hat.1 hq
        exact ⟨hq'.1, hq'.2, fun _ => hne⟩
    · rintro ⟨hq, hnot, hne⟩
      exact .inr ⟨hne rfl, hat.2 ⟨hq, hnot⟩⟩
  · constructor
    · intro hq
      have hq' := hat.1 hq
      exact ⟨hq'.1, hq'.2, fun h => by cases h⟩
    · rintro ⟨hq, hnot, -⟩
      exact hat.2 ⟨hq, hnot⟩

theorem procs_allocationFailed (ho : s.allocations p = some o)
    (hstep : s.step b (.allocationFailed p error) = .ok t) {q : ProcId} (hq : q ≠ p) :
    t.procs q = s.procs q := by
  rw [step_allocationFailed ho] at hstep
  rcases allocationFailed_ok hstep with ⟨-, -, rfl⟩ | ⟨-, rfl⟩
  · simp [hq]
  · simp [hq]

/-- The callback returns if it finds its entry. -/
theorem allocationFailed_returns (b : Backend) (ho : s.allocations p = some o) (error : Str) :
    (∃ t, s.step b (.allocationFailed p error) = .ok t) ↔
      (o = .user →
        (s.apps (s.procs p).application).activeProcesses (s.procs p).name = some p) := by
  rw [step_allocationFailed ho]
  unfold State.allocationFailed
  cases o with
  | user =>
    dsimp only
    constructor
    · rintro ⟨t, ht⟩ -
      split_ifs at ht with hentry
      exact hentry
    · intro hentry
      exact ⟨_, if_pos (hentry rfl)⟩
  | controlplane =>
    constructor
    · rintro - h
      cases h
    · intro _
      exact ⟨_, rfl⟩

end Failure

/-- In every state that is reached, for every allocation that the backend still holds,
the report of a failure leaves no trace of it if and only if the process has connected
before and, unless the control plane created it for an invocation, is still active. -/
theorem allocation_leaves_no_trace (b : Backend) (es : List Event) (s : State)
    (hrun : Lts.run (State.step b) {} es = .ok s) (p : ProcId) (o : Origin)
    (ho : s.allocations p = some o) (error : Str) :
    (∃ t, s.step b (.allocationFailed p error) = .ok t ∧ NoTrace b s p t) ↔
      (s.procs p).status ≠ .ALLOCATING ∧ (o = .user →
        (s.apps (s.procs p).application).activeProcesses (s.procs p).name = some p) := by
  have hwf := wellFormed_run hrun
  have hp := hwf.fits .allocation p (Option.isSome_iff_exists.2 ⟨o, ho⟩)
  constructor
  · rintro ⟨t, ht, htrace⟩
    refine ⟨fun hstatus => ?_, (allocationFailed_returns b ho error).1 ⟨t, ht⟩⟩
    -- a process that is being allocated is queued or pending, and stays there
    rcases hwf.waiting p hp.1 hstatus with htask | hpending
    · have hat := (at_allocationFailed ho ht .task p).2 ⟨htask, by simp, by simp⟩
      rcases htrace.gone .task hat with ⟨c, hc⟩
      cases hc
    · have hat := (at_allocationFailed ho ht (.pending (s.procs p).name) p).2
        ⟨hpending, by simp, by simp⟩
      rcases htrace.gone _ hat with ⟨c, hc⟩
      cases hc
  · rintro ⟨hstatus, hentry⟩
    rcases (allocationFailed_returns b ho error).2 hentry with ⟨t, ht⟩
    refine ⟨t, ht, noTrace_of (fun pl hpl => ?_) (fun pl q hqp => ?_)
      fun q hqp => procs_allocationFailed ho ht hqp⟩
    · rcases (at_allocationFailed ho ht pl p).1 hpl with ⟨hold, hnot, hne⟩
      have hfits := (hwf.fits pl p hold).2
      have hadmits := hwf.origin p o ho pl hold
      cases pl with
      | connection c => exact ⟨c, rfl⟩
      | allocation => exact absurd ⟨rfl, rfl⟩ hnot
      | task => exact absurd hfits hstatus
      | pending name => exact absurd hfits.2 hstatus
      | active a name =>
        cases o with
        | user => exact absurd (by rw [hfits.1, hfits.2.1]) (hne rfl)
        | controlplane => exact hadmits.elim
      | swapped a name =>
        cases o with
        | user => exact absurd hold (hwf.not_swapped (hentry rfl))
        | controlplane => exact hadmits.elim
      | controlplane a => cases o <;> exact hadmits.elim
    · rw [at_allocationFailed ho ht pl q]
      constructor
      · intro hq
        exact hq.1
      · intro hq
        refine ⟨hq, fun h => hqp h.2, fun huser hpl => ?_⟩
        subst hpl
        exact hqp (Option.some.inj (hq.symm.trans (hentry huser)))

/-! ### Before and after the process has connected -/

def creation : List Event :=
  [.addProcess 0 (str ['p']) ⟨some 128, some 1⟩ false, .runTask]

theorem failure_after_connection :
    ∃ s t, Lts.run (State.step ⟨1024, 1⟩) {}
        (creation ++ [.connected, .processConnection 0 (str ['p'])]) = .ok s ∧
      s.step ⟨1024, 1⟩ (.allocationFailed 0 []) = .ok t ∧ NoTrace ⟨1024, 1⟩ s 0 t := by
  have hrun := Lts.run_test (State.step ⟨1024, 1⟩) {}
    (creation ++ [.connected, .processConnection 0 (str ['p'])])
    (fun s => s.allocations 0 = some .user ∧ (s.procs 0).status ≠ .ALLOCATING ∧
      (s.apps (s.procs 0).application).activeProcesses (s.procs 0).name = some 0)
    (by decide +kernel)
  rcases hrun with ⟨s, hs, hallocation, hstatus, hactive⟩
  rcases (allocation_leaves_no_trace ⟨1024, 1⟩ _ s hs 0 .user hallocation []).2
    ⟨hstatus, fun _ => hactive⟩ with ⟨t, ht, htrace⟩
  exact ⟨s, t, hs, ht, htrace⟩

/-- A process fails to be allocated before it connects: it is still pending, and the
insertion of a second process of its name raises in the loop of the server. -/
theorem pending_after_failure :
    ∃ s t, Lts.run (State.step ⟨1024, 1⟩) {} creation = .ok s ∧
      s.step ⟨1024, 1⟩ (.allocationFailed 0 []) = .ok t ∧
      t.pendingProcesses (str ['p']) = some 0 ∧
      Lts.run (State.step ⟨1024, 1⟩) t creation = .error (.objectExists (str ['p'])) ∧
      ¬ NoTrace ⟨1024, 1⟩ s 0 t := by
  have hrun := Lts.run_test (State.step ⟨1024, 1⟩) {} creation
    (fun s => (s.step ⟨1024, 1⟩ (.allocationFailed 0 [])).toOption.any fun t =>
      t.pendingProcesses (str ['p']) = some 0 ∧
        (match Lts.run (State.step ⟨1024, 1⟩) t creation with
          | .error f => some f
          | .ok _ => none) = some (.objectExists (str ['p']))) (by decide +kernel)
  rcases hrun with ⟨s, hs, hfailed⟩
  cases ht : s.step ⟨1024, 1⟩ (.allocationFailed 0 []) with
  | error f => simp [ht, Except.toOption] at hfailed
  | ok t =>
    simp only [ht, Except.toOption, Option.any_some, decide_eq_true_eq] at hfailed
    rcases hfailed with ⟨hpending, hagain⟩
    refine ⟨s, t, hs, ht, hpending, ?_, fun htrace => ?_⟩
    · cases hnext : Lts.run (State.step ⟨1024, 1⟩) t creation with
      | error f =>
        rw [hnext] at hagain
        rw [Option.some.inj hagain]
      | ok u =>
        rw [hnext] at hagain
        cases hagain
    · rcases htrace.gone (.pending (str ['p'])) hpending with ⟨c, hc⟩
      cases hc

end Praas.ControlPlane
