import Praas.ControlPlane.Places

/-! # The tables of active and of swapped processes

`add_process` looks for the name of the new process in the active table only, and
`closed_process` removes by name. As long as no process is created under the name of
one that is swapped out, and none of those that are no longer active closes while
another is swapped out under its name, the two tables stay apart.
* `separated_step` — what one event preserves;
* `process_tables` — the tables in every state that is reached.
-/

namespace Praas.ControlPlane

/-- No name is in both tables, and the status of a process fits its table. -/
structure Tables (s : State) : Prop where
  apart : ∀ a name, (s.apps a).activeProcesses name = none ∨
    (s.apps a).swappedProcesses name = none
  active : ∀ a name p, (s.apps a).activeProcesses name = some p →
    (s.procs p).status = .ALLOCATING ∨ (s.procs p).status = .ALLOCATED ∨
      (s.procs p).status = .SWAPPING_OUT
  swapped : ∀ a name p, (s.apps a).swappedProcesses name = some p →
    (s.procs p).status = .SWAPPED_OUT ∨ (s.procs p).status = .CLOSED

/-- A process that was swapped out by the event is in the swapped table, and those that
were there before are still there if they are not deleted. -/
structure Kept (s : State) (e : Event) (t : State) : Prop where
  confirmed : ∀ p, (s.procs p).status ≠ .SWAPPED_OUT → (t.procs p).status = .SWAPPED_OUT →
    (t.apps (s.procs p).application).swappedProcesses (s.procs p).name = some p
  remaining : ∀ a name p, (s.apps a).swappedProcesses name = some p →
    e ≠ .deleteProcess a name → (t.apps a).swappedProcesses name = some p

/-- A connection is closed once, by a closure message or by its end. -/
def OncePerConnection (s : State) : Event → Prop
  | .processClosure c => ∀ conn ∈ s.conns c, conn.shutdown = false
  | .disconnected c => ∀ conn ∈ s.conns c, conn.shutdown = false
  | _ => True

/-- The process of a connection is swapped out, or its name is not that of a process
that is. -/
def ClosesOwn (s : State) (c : ConnId) : Prop :=
  ∀ conn ∈ s.conns c, ∀ p ∈ conn.context, (s.procs p).status = .SWAPPED_OUT ∨
    (s.apps (s.procs p).application).activeProcesses (s.procs p).name ≠ none ∨
    (s.apps (s.procs p).application).swappedProcesses (s.procs p).name = none

/-- A new process does not take the name of one that is swapped out, the entry of a
process whose allocation fails is still there, and a process closes its own entry. -/
def Separate (b : Backend) (s : State) : Event → Prop
  | .addProcess a name resources _ =>
    b.rejects resources = none → (s.apps a).activeProcesses name = none →
      (s.apps a).swappedProcesses name = none
  | .allocationFailed p _ => s.allocations p = some .user →
    (s.apps (s.procs p).application).activeProcesses (s.procs p).name = some p
  | .processClosure c => ClosesOwn s c
  | .disconnected c => ClosesOwn s c
  | _ => True

instance (s : State) (e : Event) : Decidable (OncePerConnection s e) :=
  match e with
  | .processClosure _ | .disconnected _ => inferInstanceAs (Decidable (∀ _ ∈ _, _))
  | .addProcess .. | .invoke .. | .swapProcess .. | .swappedProcess .. | .deleteProcess ..
  | .allocated _ | .allocationFailed .. | .instanceConnected .. | .runTask | .connected
  | .processConnection .. | .invocationResult .. | .swapConfirmation _ =>
    inferInstanceAs (Decidable True)

instance (s : State) (c : ConnId) : Decidable (ClosesOwn s c) :=
  inferInstanceAs (Decidable (∀ _ ∈ _, ∀ _ ∈ _, _))

instance (b : Backend) (s : State) (e : Event) : Decidable (Separate b s e) :=
  match e with
  | .addProcess .. => inferInstanceAs (Decidable (_ → _ → _))
  | .allocationFailed .. => inferInstanceAs (Decidable (_ → _))
  | .processClosure c | .disconnected c => inferInstanceAs (Decidable (ClosesOwn s c))
  | .invoke .. | .swapProcess .. | .swappedProcess .. | .deleteProcess .. | .allocated _
  | .instanceConnected .. | .runTask | .connected | .processConnection ..
  | .invocationResult .. | .swapConfirmation _ => inferInstanceAs (Decidable True)

/-- The invariant of `Tables`, for a state that is well formed. -/
structure Separated (s : State) : Prop where
  apart : ∀ a name p q, s.At (.active a name) p → ¬ s.At (.swapped a name) q
  failed : ∀ a name p, s.At (.swapped a name) p → (s.procs p).status ≠ .FAILURE
  running : ∀ c conn p, s.conns c = some conn → conn.context = some p →
    conn.shutdown = false → (s.procs p).status ≠ .CLOSED ∧ (s.procs p).status ≠ .FAILURE

theorem separated_new : Separated {} where
  apart _ _ _ _ h := by cases h
  failed _ _ _ h := by cases h
  running _ _ _ h := by cases h

theorem Separated.tables {s : State} (h : Separated s) (hwf : WellFormed s) : Tables s where
  apart a name := by
    cases hactive : (s.apps a).activeProcesses name with
    | none => exact .inl rfl
    | some p =>
      refine .inr (Option.eq_none_iff_forall_not_mem.2 fun q hq => ?_)
      exact h.apart a name p q hactive hq
  active a name p hp := (hwf.fits (.active a name) p hp).2.2.2
  swapped a name p hp := by
    rcases (hwf.fits (.swapped a name) p hp).2.2.2 with hst | hst | hst
    · exact .inl hst
    · exact .inr hst
    · exact absurd hst (h.failed a name p hp)

section Changes

variable {s t : State}

/-- Processes leave places, and their status stays or becomes one of a process that
runs. -/
theorem Separated.leave (h : Separated s)
    (hstatus : ∀ p, (t.procs p).status = (s.procs p).status ∨
      (t.procs p).status ≠ .CLOSED ∧ (t.procs p).status ≠ .FAILURE)
    (hat : ∀ pl p, t.At pl p → s.At pl p) (hconns : t.conns = s.conns) : Separated t where
  apart a name p q hp hq := h.apart a name p q (hat _ p hp) (hat _ q hq)
  failed a name p hp := by
    rcases hstatus p with heq | hne
    · rw [heq]
      exact h.failed a name p (hat _ p hp)
    · exact hne.2
  running c conn p hc hcontext hopen := by
    rcases hstatus p with heq | hne
    · rw [heq]
      rw [hconns] at hc
      exact h.running c conn p hc hcontext hopen
    · exact hne

theorem Separated.setProcess (h : Separated s) {p : ProcId} {proc : Process}
    (hstatus : proc.status = (s.procs p).status ∨
      proc.status ≠ .CLOSED ∧ proc.status ≠ .FAILURE) : Separated (s.setProcess p proc) := by
  refine h.leave (fun q => ?_) (fun _ _ hq => hq) rfl
  by_cases hqp : q = p
  · subst hqp
    simpa using hstatus
  · exact .inl (by simp [hqp])

theorem Separated.setActive_none (h : Separated s) (a : AppId) (name : Str) :
    Separated (s.setActive a name none) := by
  refine h.leave (fun _ => .inl rfl) (fun pl q hq => ?_) rfl
  rcases at_setActive.1 hq with ⟨-, hnone⟩ | ⟨-, hold⟩
  · cases hnone
  · exact hold

theorem Separated.setSwapped_none (h : Separated s) (a : AppId) (name : Str) :
    Separated (s.setSwapped a name none) := by
  refine h.leave (fun _ => .inl rfl) (fun pl q hq => ?_) rfl
  rcases at_setSwapped.1 hq with ⟨-, hnone⟩ | ⟨-, hold⟩
  · cases hnone
  · exact hold

theorem Separated.setActive_some (h : Separated s) {a : AppId} {name : Str} {p : ProcId}
    (hfree : (s.apps a).swappedProcesses name = none) :
    Separated (s.setActive a name (some p)) := by
  have hswapped : ∀ a' name' q, (s.setActive a name (some p)).At (.swapped a' name') q →
      s.At (.swapped a' name') q := by
    intro a' name' q hq
    rcases at_setActive.1 hq with ⟨hpl, -⟩ | ⟨-, hold⟩
    · cases hpl
    · exact hold
  constructor
  case apart =>
    intro a' name' q r hq hr
    have hr' := hswapped a' name' r hr
    rcases at_setActive.1 hq with ⟨hpl, -⟩ | ⟨-, hold⟩
    · obtain ⟨rfl, rfl⟩ := Place.active.inj hpl
      cases hfree.symm.trans hr'
    · exact h.apart a' name' q r hold hr'
  case failed => exact fun a' name' q hq => h.failed a' name' q (hswapped a' name' q hq)
  case running => exact h.running

theorem Separated.setSwapped_some (h : Separated s) {a : AppId} {name : Str} {p : ProcId}
    (hfree : (s.apps a).activeProcesses name = none) (hstatus : (s.procs p).status ≠ .FAILURE) :
    Separated (s.setSwapped a name (some p)) := by
  have hactive : ∀ a' name' q, (s.setSwapped a name (some p)).At (.active a' name') q →
      s.At (.active a' name') q := by
    intro a' name' q hq
    rcases at_setSwapped.1 hq with ⟨hpl, -⟩ | ⟨-, hold⟩
    · cases hpl
    · exact hold
  constructor
  case apart =>
    intro a' name' q r hq hr
    have hq' := hactive a' name' q hq
    rcases at_setSwapped.1 hr with ⟨hpl, -⟩ | ⟨-, hold⟩
    · obtain ⟨rfl, rfl⟩ := Place.swapped.inj hpl
      cases hfree.symm.trans hq'
    · exact h.apart a' name' q r hq' hold
  case failed =>
    intro a' name' q hq
    rcases at_setSwapped.1 hq with ⟨-, hp⟩ | ⟨-, hold⟩
    · rw [← Option.some.inj hp]
      exact hstatus
    · exact h.failed a' name' q hold
  case running => exact h.running

/-- A new process is in no table but that of the active ones. -/
theorem Separated.allocate (h : Separated t) {proc : Process} {o : Origin}
    (hnew : ∀ pl, t.At pl t.nextProc → ∃ a name, pl = .active a name) :
    Separated (t.allocate proc o) := by
  have hother : ∀ q, q ≠ t.nextProc → (t.allocate proc o).procs q = t.procs q := by
    intro q hq
    simp [hq]
  constructor
  case apart => exact h.apart
  case failed =>
    intro a name q hq
    have hne : q ≠ t.nextProc := by
      rintro rfl
      rcases hnew (.swapped a name) hq with ⟨_, _, hpl⟩
      cases hpl
    rw [hother q hne]
    exact h.failed a name q hq
  case running =>
    intro c conn q hc hcontext hopen
    have hne : q ≠ t.nextProc := by
      rintro rfl
      have hat : t.At (.connection c) t.nextProc := by
        have hc' : t.conns c = some conn := hc
        simp [State.At, hc', hcontext]
      rcases hnew _ hat with ⟨_, _, hpl⟩
      cases hpl
    rw [hother q hne]
    exact h.running c conn q hc hcontext hopen

end Changes

/-! ## The operations -/

section Operations

variable {s t : State} {b : Backend}

theorem separated_addProcess (h : Separated s) (hwf : WellFormed s) {a : AppId} {name : Str}
    {resources : Resources} {wait : Bool}
    (hfree : b.rejects resources = none → (s.apps a).activeProcesses name = none →
      (s.apps a).swappedProcesses name = none)
    (hadd : s.addProcess b a name resources wait = .ok t) : Separated t := by
  rcases addProcess_ok hadd with ⟨-, hresources, hactive, rfl⟩
  refine (h.setActive_some (hfree hresources hactive)).allocate (fun pl hpl => ?_)
  rcases at_setActive.1 hpl with ⟨rfl, -⟩ | ⟨-, hold⟩
  · exact ⟨a, name, rfl⟩
  · exact absurd (hwf.fits pl _ hold).1 (lt_irrefl _)

theorem separated_getControlplaneProcess (h : Separated s) (hwf : WellFormed s) (a : AppId)
    (i : Invocation) : Separated (s.getControlplaneProcess a i).1 := by
  rcases getControlplaneProcess_cases s a i with ⟨p, -, hadded⟩ | ⟨-, hcreated⟩
  · rw [hadded]
    exact h.setProcess (.inl (Process.status_of_place (Process.place_addInvocation _ _)))
  · rw [hcreated]
    exact h.allocate fun pl hpl => absurd (hwf.fits pl _ hpl).1 (lt_irrefl _)

theorem separated_swapProcess (h : Separated s) (a : AppId) (name path : Str) :
    Separated (s.swapProcess a name path).1 := by
  rcases swapProcess_cases s a name path with hsame | ⟨p, -, -, hswapping⟩
  · rw [hsame]
    exact h
  · rw [hswapping]
    have hplace := Process.place_swap
      { s.procs p with status := .SWAPPING_OUT, swapPath := some path }
    refine h.setProcess (.inr ?_)
    rw [Process.status_of_place hplace]
    exact ⟨by simp, by simp⟩

/-- The process that is swapped out is inserted: its name is free. -/
theorem swappedProcess_separated (h : Separated s) {a : AppId} {name : Str}
    (hswap : s.swappedProcess a name = .ok t) :
    ∃ p, (s.apps a).activeProcesses name = some p ∧ (s.procs p).status = .SWAPPING_OUT ∧
      (s.apps a).swappedProcesses name = none ∧
      t = ((s.setActive a name none).setStatus p .SWAPPED_OUT).setSwapped a name (some p) := by
  rcases swappedProcess_ok hswap with ⟨p, hactive, hstatus, rfl⟩
  have hfree : (s.apps a).swappedProcesses name = none :=
    Option.eq_none_iff_forall_not_mem.2 fun q hq => h.apart a name p q hactive hq
  refine ⟨p, hactive, hstatus, hfree, ?_⟩
  rw [if_neg (by simp [hfree])]

theorem separated_swappedProcess (h : Separated s) {a : AppId} {name : Str}
    (hswap : s.swappedProcess a name = .ok t) : Separated t := by
  rcases swappedProcess_separated h hswap with ⟨p, -, -, -, rfl⟩
  have hout : Separated ((s.setActive a name none).setStatus p .SWAPPED_OUT) :=
    (h.setActive_none a name).setProcess (.inr ⟨by simp, by simp⟩)
  refine hout.setSwapped_some ?_ ?_
  · simp [State.setStatus]
  · simp [State.setStatus]

theorem separated_deleteProcess (h : Separated s) {a : AppId} {name : Str}
    (hdelete : s.deleteProcess a name = .ok t) : Separated t := by
  rw [(deleteProcess_ok hdelete).2]
  exact h.setSwapped_none a name

theorem separated_allocated (h : Separated s) (p : ProcId) (o : Origin) :
    Separated (s.allocated p o) := by
  have hplace : ((s.procs p).setHandle.createdCallback none).place = (s.procs p).place := by simp
  have hset := h.setProcess (p := p) (.inl (Process.status_of_place hplace))
  cases o with
  | user => exact hset
  | controlplane =>
    constructor
    case apart =>
      intro a name q r hq hr
      rcases at_addControlplane.1 hq with hq | ⟨-, hpl⟩
      · rcases at_addControlplane.1 hr with hr | ⟨-, hpl⟩
        · exact hset.apart a name q r hq hr
        · cases hpl
      · cases hpl
    case failed =>
      intro a name q hq
      rcases at_addControlplane.1 hq with hq | ⟨-, hpl⟩
      · exact hset.failed a name q hq
      · cases hpl
    case running => exact hset.running

/-- The entry is there: the callback of a failed allocation removes it. -/
theorem separated_allocationFailed (h : Separated s) {p : ProcId} {o : Origin}
    (hentry : o = .user →
      (s.apps (s.procs p).application).activeProcesses (s.procs p).name = some p)
    (error : Str) : ∃ t, s.allocationFailed p o error = .ok t ∧ Separated t ∧
      (∀ a, (t.apps a).swappedProcesses = (s.apps a).swappedProcesses) ∧
      ∀ q, (t.procs q).status = (s.procs q).status := by
  have hplace : ((s.procs p).createdCallback (some error)).place = (s.procs p).place := by simp
  have hset := h.setProcess (p := p) (.inl (Process.status_of_place hplace))
  have hsame : ∀ q, ((s.setProcess p ((s.procs p).createdCallback (some error))).procs q).status =
      (s.procs q).status := by
    intro q
    by_cases hqp : q = p
    · subst hqp
      simpa using Process.status_of_place hplace
    · simp [hqp]
  cases o with
  | user =>
    refine ⟨_, if_pos (hentry rfl), hset.setActive_none _ _, fun a => ?_, hsame⟩
    by_cases ha : a = (s.procs p).application
    · simp [ha]
    · simp [ha]
  | controlplane => exact ⟨_, rfl, hset, fun _ => rfl, hsame⟩

theorem separated_runTask (h : Separated s) (hrun : s.runTask = .ok t) : Separated t := by
  rcases runTask_ok hrun with rfl | ⟨p, rest, -, -, rfl⟩
  · exact h
  · exact ⟨h.apart, h.failed, h.running⟩

theorem separated_handleConnection (h : Separated s) (hwf : WellFormed s) {c : ConnId}
    {conn : Connection} {name : Str} (hconn : s.handleConnection c conn name = .ok t) :
    Separated t := by
  rcases handleConnection_ok hconn with rfl | ⟨p, hpending, -, rfl⟩
  · exact h
  have hp := hwf.fits (.pending name) p hpending
  have hstatus : ((s.procs p).connect c).1.status = .ALLOCATED :=
    congrArg (fun x => x.2.2) (Process.place_connect hp.2.2 c)
  have hset : Separated (s.setProcess p ((s.procs p).connect c).1) :=
    h.setProcess (.inr (by rw [hstatus]; exact ⟨by simp, by simp⟩))
  constructor
  case apart => exact hset.apart
  case failed => exact hset.failed
  case running =>
    intro c' conn' q hc hcontext hopen
    by_cases hcc : c' = c
    · subst hcc
      simp only [Function.update_self, Option.some.injEq] at hc
      subst hc
      obtain rfl : p = q := Option.some.inj hcontext
      simp [hstatus]
    · have hold : Function.update s.conns c (some { conn with context := some p }) c' =
          some conn' := hc
      rw [Function.update_of_ne hcc] at hold
      exact hset.running c' conn' q hold hcontext hopen

/-- The connection of a process closes, and does not count as open any more. -/
theorem separated_closedProcess (h : Separated s) (hwf : WellFormed s) {c : ConnId}
    {conn : Connection} {p : ProcId} (hconn : s.conns c = some conn)
    (hcontext : conn.context = some p) (hopen : conn.shutdown = false) {v : Option Connection}
    (hv : ∀ conn' ∈ v, conn'.shutdown = true) :
    Separated { s.closedProcess p with conns := Function.update (s.closedProcess p).conns c v } := by
  have hrunning := h.running c conn p hconn hcontext hopen
  have hat : s.At (.connection c) p := by simp [State.At, hconn, hcontext]
  -- no other open connection has this process
  have hothers : ∀ c' conn' q, Function.update (s.closedProcess p).conns c v c' = some conn' →
      conn'.context = some q → conn'.shutdown = false →
      q ≠ p ∧ (s.procs q).status ≠ .CLOSED ∧ (s.procs q).status ≠ .FAILURE := by
    intro c' conn' q hc' hcontext' hopen'
    by_cases hcc : c' = c
    · subst hcc
      rw [Function.update_self] at hc'
      cases (hv conn' hc').symm.trans hopen'
    · rw [Function.update_of_ne hcc, conns_closedProcess] at hc'
      refine ⟨?_, h.running c' conn' q hc' hcontext' hopen'⟩
      rintro rfl
      exact hcc (hwf.contexts c' c q (by simp [State.At, hc', hcontext']) hat)
  have hstatus : ∀ q, q ≠ p → ((s.closedProcess p).procs q).status = (s.procs q).status := by
    intro q hq
    rw [procs_closedProcess hq]
  have hplaces : ∀ pl q, (s.closedProcess p).At pl q → s.At pl q :=
    fun pl q hq => at_closedProcess hq
  constructor
  case apart => exact fun a name q r hq hr => h.apart a name q r (hplaces _ q hq) (hplaces _ r hr)
  case failed =>
    intro a name q hq
    have hold := hplaces (.swapped a name) q hq
    by_cases hqp : q = p
    · subst hqp
      have hout : (s.procs q).status = .SWAPPED_OUT := by
        rcases (hwf.fits (.swapped a name) q hold).2.2.2 with hst | hst | hst
        · exact hst
        · exact absurd hst hrunning.1
        · exact absurd hst hrunning.2
      show ((s.closedProcess q).procs q).status ≠ .FAILURE
      unfold State.closedProcess
      simp [hout, Process.closeConnection]
    · show ((s.closedProcess p).procs q).status ≠ .FAILURE
      rw [hstatus q hqp]
      exact h.failed a name q hold
  case running =>
    intro c' conn' q hc' hcontext' hopen'
    rcases hothers c' conn' q hc' hcontext' hopen' with ⟨hqp, hne⟩
    show ((s.closedProcess p).procs q).status ≠ .CLOSED ∧ ((s.closedProcess p).procs q).status ≠ .FAILURE
    rw [hstatus q hqp]
    exact hne

/-- A connection without a process is opened or closed. -/
theorem Separated.setConn (h : Separated s) {c : ConnId} {v : Option Connection}
    (hv : ∀ conn ∈ v, conn.context = none) :
    Separated { s with conns := Function.update s.conns c v } where
  apart := h.apart
  failed := h.failed
  running c' conn p hc hcontext hopen := by
    have hc' : Function.update s.conns c v c' = some conn := hc
    by_cases hcc : c' = c
    · subst hcc
      rw [Function.update_self] at hc'
      cases (hv conn hc').symm.trans hcontext
    · rw [Function.update_of_ne hcc] at hc'
      exact h.running c' conn p hc' hcontext hopen

theorem separated_disconnection (h : Separated s) (hwf : WellFormed s) {c : ConnId}
    {conn : Connection} (hconn : s.conns c = some conn) (hopen : conn.shutdown = false)
    {v : Option Connection} (hv : ∀ conn' ∈ v, conn'.shutdown = true ∧ conn'.context = conn.context) :
    Separated { s.handleDisconnection conn with
      conns := Function.update (s.handleDisconnection conn).conns c v } := by
  cases hcontext : conn.context with
  | none =>
    have hdone : s.handleDisconnection conn =
        { s with numConnectedProcesses := s.numConnectedProcesses - 1 } := by
      unfold State.handleDisconnection
      rw [hcontext]
    rw [hdone]
    have hset := h.setConn (c := c) (v := v) fun conn' hc' => (hv conn' hc').2.trans hcontext
    exact ⟨hset.apart, hset.failed, hset.running⟩
  | some p =>
    rw [handleDisconnection_some hcontext]
    have hcounted : Separated s.deregister := ⟨h.apart, h.failed, h.running⟩
    have hwf' : WellFormed s.deregister :=
      hwf.leave rfl (fun _ => rfl) (fun _ _ hq => hq) rfl rfl (fun _ _ ho => ho)
    exact separated_closedProcess hcounted hwf' hconn hcontext hopen fun conn' hc' =>
      (hv conn' hc').1

end Operations

theorem separated_step {b : Backend} {s t : State} (e : Event) (h : Separated s)
    (hwf : WellFormed s) (honce : OncePerConnection s e) (hseparate : Separate b s e)
    (hstep : s.step b e = .ok t) : Separated t := by
  cases performs_of_step hstep with
  | same => exact h
  | addProcess hadd => exact separated_addProcess h hwf hseparate hadd
  | invoke a i => exact separated_getControlplaneProcess h hwf a i
  | swapProcess a name path => exact separated_swapProcess h a name path
  | swappedProcess hswap => exact separated_swappedProcess h hswap
  | deleteProcess hdelete => exact separated_deleteProcess h hdelete
  | @allocated p o ho =>
    exact separated_allocated (s := { s with allocations := Function.update s.allocations p none })
      ⟨h.apart, h.failed, h.running⟩ p o
  | @allocationFailed p error o t ho hfail =>
    -- the callback finds the entry of the process
    rcases separated_allocationFailed
      (s := { s with allocations := Function.update s.allocations p none })
      ⟨h.apart, h.failed, h.running⟩ (p := p) (o := o)
      (fun ho' => hseparate (ho' ▸ ho)) error with ⟨t', ht', hsep, -⟩
    rw [ht'] at hfail
    rw [← Except.ok.inj hfail]
    exact hsep
  | instanceConnected error hconnecting =>
    refine h.setProcess (.inl ?_)
    exact Process.status_of_place (Process.place_instanceConnected _ _)
  | runTask hrun => exact separated_runTask h hrun
  | connected =>
    have hconn := h.setConn (c := s.nextConn) (v := some {})
      (fun conn hc => by rw [← Option.some.inj hc])
    exact ⟨hconn.apart, hconn.failed, hconn.running⟩
  | processConnection hconn hcontext hregister => exact separated_handleConnection h hwf hregister
  | invocationResult id returnCode result hconn hcontext =>
    exact h.setProcess (.inl (Process.status_of_place (Process.place_finishInvocation _ _ _ _)))
  | swapConfirmation hconn hcontext hswap => exact separated_swappedProcess h hswap
  | @processClosure c conn p hconn hcontext =>
    refine separated_disconnection h hwf hconn (honce conn hconn) (fun conn' hc' => ?_)
    rw [← Option.some.inj hc']
    exact ⟨rfl, rfl⟩
  | @disconnected c conn hconn =>
    exact separated_disconnection h hwf hconn (honce conn hconn) (fun _ hc' => by cases hc')

/-! ## What is swapped out stays -/

/-- No process is swapped out, and none leaves the swapped table. -/
structure Quiet (s t : State) : Prop where
  status : ∀ p, (t.procs p).status = .SWAPPED_OUT → (s.procs p).status = .SWAPPED_OUT
  remaining : ∀ a name p, (s.apps a).swappedProcesses name = some p →
    (t.apps a).swappedProcesses name = some p

section Quiet

variable {s t u : State}

theorem Quiet.refl (s : State) : Quiet s s := ⟨fun _ h => h, fun _ _ _ h => h⟩

theorem quiet_of_same (hprocs : t.procs = s.procs) (happs : t.apps = s.apps) : Quiet s t := by
  refine ⟨fun p hp => ?_, fun a name p hp => ?_⟩
  · rwa [hprocs] at hp
  · rwa [happs]

theorem Quiet.trans (h : Quiet s t) (h' : Quiet t u) : Quiet s u where
  status p hp := h.status p (h'.status p hp)
  remaining a name p hp := h'.remaining a name p (h.remaining a name p hp)

theorem Quiet.kept (h : Quiet s t) (e : Event) : Kept s e t where
  confirmed p hold hnew := absurd (h.status p hnew) hold
  remaining a name p hp _ := h.remaining a name p hp

theorem quiet_setProcess {p : ProcId} {proc : Process}
    (hstatus : proc.status = .SWAPPED_OUT → (s.procs p).status = .SWAPPED_OUT) :
    Quiet s (s.setProcess p proc) := by
  refine ⟨fun q hq => ?_, fun _ _ _ hq => hq⟩
  by_cases hqp : q = p
  · subst hqp
    exact hstatus (by simpa using hq)
  · simpa [hqp] using hq

theorem quiet_setActive (a : AppId) (name : Str) (v : Option ProcId) :
    Quiet s (s.setActive a name v) := by
  refine ⟨fun _ hq => hq, fun a' name' q hq => ?_⟩
  by_cases ha : a' = a
  · subst ha
    simpa using hq
  · simpa [ha] using hq

theorem quiet_addControlplane (a : AppId) (p : ProcId) : Quiet s (s.addControlplane a p) := by
  refine ⟨fun _ hq => hq, fun a' name' q hq => ?_⟩
  by_cases ha : a' = a
  · subst ha
    simpa using hq
  · simpa [ha] using hq

theorem quiet_allocate {proc : Process} {o : Origin} (hstatus : proc.status = .ALLOCATING) :
    Quiet s (s.allocate proc o) := by
  refine ⟨fun q hq => ?_, fun _ _ _ hq => hq⟩
  by_cases hnew : q = s.nextProc
  · subst hnew
    simp [hstatus] at hq
  · simpa [hnew] using hq

theorem quiet_closedProcess {p : ProcId}
    (hown : (s.procs p).status = .SWAPPED_OUT ∨
      (s.apps (s.procs p).application).activeProcesses (s.procs p).name ≠ none ∨
      (s.apps (s.procs p).application).swappedProcesses (s.procs p).name = none) :
    Quiet s (s.closedProcess p) := by
  constructor
  · intro q hq
    by_cases hqp : q = p
    · subst hqp
      by_contra hout
      rcases closedProcess_cases s q with ⟨hold, -⟩ | ⟨-, r, -, hclosed⟩ | ⟨-, -, hclosed⟩
      · exact hout hold
      · simp [hclosed, State.setStatus] at hq
      · simp [hclosed, State.setStatus] at hq
    · rw [procs_closedProcess hqp] at hq
      exact hq
  · intro a name q hq
    refine (at_closedProcess_iff (k := .swapped a name)).2 ⟨fun hout hpl => ?_, hq⟩
    unfold State.found at hpl
    split_ifs at hpl with hactive
    obtain ⟨rfl, rfl⟩ := Place.swapped.inj hpl
    rcases hown with h | h | h
    · exact hout h
    · exact hactive (Option.isSome_iff_ne_none.2 h)
    · cases h.symm.trans hq

theorem quiet_samePlace {p : ProcId} {proc : Process} (hplace : proc.place = (s.procs p).place) :
    Quiet s (s.setProcess p proc) :=
  quiet_setProcess fun h => (Process.status_of_place hplace).symm.trans h

theorem quiet_disconnection {c : ConnId} {conn : Connection} (hconn : s.conns c = some conn)
    (hown : ClosesOwn s c) (v : Option Connection) :
    Quiet s { s.handleDisconnection conn with
      conns := Function.update (s.handleDisconnection conn).conns c v } := by
  have hclosed : Quiet s (s.handleDisconnection conn) := by
    cases hcontext : conn.context with
    | none =>
      unfold State.handleDisconnection
      rw [hcontext]
      exact quiet_of_same rfl rfl
    | some p =>
      rw [handleDisconnection_some hcontext]
      have hquiet := quiet_closedProcess (s := s.deregister) (hown conn hconn p hcontext)
      exact ⟨hquiet.status, hquiet.remaining⟩
  exact ⟨hclosed.status, hclosed.remaining⟩

/-- The process enters the swapped table, and the others stay. -/
theorem kept_swappedProcess (h : Separated s) (hwf : WellFormed s) {a : AppId} {name : Str}
    (e : Event) (hswap : s.swappedProcess a name = .ok t) : Kept s e t := by
  rcases swappedProcess_separated h hswap with ⟨p, hactive, hstatus, hfree, rfl⟩
  have hself := (hwf.fits (.active a name) p hactive).2
  constructor
  case confirmed =>
    intro q hold hnew
    by_cases hqp : q = p
    · subst hqp
      refine at_setSwapped (k := .swapped _ _).2 (.inl ⟨?_, rfl⟩)
      rw [hself.1, hself.2.1]
    · simp [State.setStatus, hqp] at hnew
      exact absurd hnew hold
  case remaining =>
    intro a' name' q hq _
    refine at_setSwapped (k := .swapped a' name').2 (.inr ⟨?_, ?_⟩)
    · intro hpl
      obtain ⟨rfl, rfl⟩ := Place.swapped.inj hpl
      cases hfree.symm.trans hq
    · exact at_setActive (k := .swapped a' name').2 (.inr ⟨by simp, hq⟩)

end Quiet

theorem kept_step {b : Backend} {s t : State} (e : Event) (h : Separated s) (hwf : WellFormed s)
    (hseparate : Separate b s e) (hstep : s.step b e = .ok t) : Kept s e t := by
  cases performs_of_step hstep with
  | same => exact (Quiet.refl s).kept _
  | @addProcess a name resources wait t hadd =>
    rcases addProcess_ok hadd with ⟨-, -, -, rfl⟩
    exact ((quiet_setActive a name _).trans (quiet_allocate rfl)).kept _
  | invoke a i =>
    refine Quiet.kept ?_ _
    rcases getControlplaneProcess_cases s a i with ⟨p, -, hadded⟩ | ⟨-, hcreated⟩
    · rw [hadded]
      exact quiet_samePlace (Process.place_addInvocation _ _)
    · rw [hcreated]
      exact quiet_allocate rfl
  | swapProcess a name path =>
    refine Quiet.kept ?_ _
    rcases swapProcess_cases s a name path with hsame | ⟨p, -, -, hswapping⟩
    · rw [hsame]
      exact Quiet.refl s
    · rw [hswapping]
      have hplace := Process.place_swap
        { s.procs p with status := .SWAPPING_OUT, swapPath := some path }
      refine quiet_setProcess fun hout => ?_
      cases (Process.status_of_place hplace).symm.trans hout
  | swappedProcess hswap => exact kept_swappedProcess h hwf _ hswap
  | @deleteProcess a name t hdelete =>
    -- the deleted process leaves the table, and that is the event's purpose
    rw [(deleteProcess_ok hdelete).2]
    refine ⟨fun p hold hnew => absurd hnew hold, fun a' name' q hq hne => ?_⟩
    refine at_setSwapped (k := .swapped a' name').2 (.inr ⟨fun hpl => ?_, hq⟩)
    obtain ⟨rfl, rfl⟩ := Place.swapped.inj hpl
    exact hne rfl
  | @allocated p o ho =>
    have htaken : Quiet s { s with allocations := Function.update s.allocations p none } :=
      quiet_of_same rfl rfl
    have hset : Quiet { s with allocations := Function.update s.allocations p none }
        ({ s with allocations := Function.update s.allocations p none }.setProcess p
          ((s.procs p).setHandle.createdCallback none)) :=
      quiet_samePlace (by simp)
    cases o with
    | user => exact (htaken.trans hset).kept _
    | controlplane => exact ((htaken.trans hset).trans (quiet_addControlplane _ _)).kept _
  | @allocationFailed p error o t ho hfail =>
    rcases separated_allocationFailed
      (s := { s with allocations := Function.update s.allocations p none })
      ⟨h.apart, h.failed, h.running⟩ (p := p) (o := o)
      (fun ho' => hseparate (ho' ▸ ho)) error with ⟨t', ht', -, hswapped, hsame⟩
    rw [ht'] at hfail
    rw [← Except.ok.inj hfail]
    have hquiet : Quiet s t' := by
      refine ⟨fun q hq => (hsame q).symm.trans hq, fun a name q hq => ?_⟩
      rw [hswapped a]
      exact hq
    exact hquiet.kept _
  | instanceConnected error hconnecting =>
    refine (quiet_samePlace ?_).kept _
    rw [Process.place_instanceConnected]
    rfl
  | runTask hrun =>
    rcases runTask_ok hrun with rfl | ⟨p, rest, -, -, rfl⟩
    · exact (Quiet.refl _).kept _
    · apply Quiet.kept
      exact quiet_of_same rfl rfl
  | connected =>
    apply Quiet.kept
    exact quiet_of_same rfl rfl
  | @processConnection c name conn t hconn hcontext hregister =>
    rcases handleConnection_ok hregister with rfl | ⟨p, hpending, -, rfl⟩
    · exact (Quiet.refl _).kept _
    · have hp := hwf.fits (.pending name) p hpending
      have hstatus : ((s.procs p).connect c).1.status = .ALLOCATED :=
        congrArg (fun x => x.2.2) (Process.place_connect hp.2.2 c)
      have hset : Quiet s (s.setProcess p ((s.procs p).connect c).1) :=
        quiet_setProcess fun hout => by cases hstatus.symm.trans hout
      apply Quiet.kept
      exact hset.trans (quiet_of_same rfl rfl)
  | invocationResult id returnCode result hconn hcontext =>
    exact (quiet_samePlace (Process.place_finishInvocation _ _ _ _)).kept _
  | swapConfirmation hconn hcontext hswap => exact kept_swappedProcess h hwf _ hswap
  | processClosure hconn hcontext => exact (quiet_disconnection hconn hseparate _).kept _
  | disconnected hconn => exact (quiet_disconnection hconn hseparate _).kept _

/-! ## Runs -/

/-- The tables in every state of a run in which no name is taken while it is swapped
out: the report of a failed allocation finds its entry, and no event discards a
process that is swapped out. -/
theorem process_tables (b : Backend) (es : List Event) (s : State)
    (h : Lts.Meets (State.step b) (fun s e => OncePerConnection s e ∧ Separate b s e) {} es)
    (hrun : Lts.run (State.step b) {} es = .ok s) :
    Tables s ∧ ∀ e, OncePerConnection s e → Separate b s e →
      (∀ p error, e = .allocationFailed p error → ∃ t, s.step b e = .ok t) ∧
        ∀ t, s.step b e = .ok t → Kept s e t := by
  have hkeep : ∀ s e t, Separated s ∧ WellFormed s → OncePerConnection s e ∧ Separate b s e →
      s.step b e = .ok t → Separated t ∧ WellFormed t := by
    intro s e t hs hC hstep
    exact ⟨separated_step e hs.1 hs.2 hC.1 hC.2 hstep, wellFormed_step e hs.2 hstep⟩
  have hboth := Lts.run_invariant hkeep ⟨separated_new, wellFormed_new⟩ h hrun
  refine ⟨hboth.1.tables hboth.2, fun e honce hseparate => ⟨?_, fun t ht => ?_⟩⟩
  · rintro p error rfl
    simp only [State.step]
    split
    case h_1 o ho =>
      rcases separated_allocationFailed
        (s := { s with allocations := Function.update s.allocations p none })
        ⟨hboth.1.apart, hboth.1.failed, hboth.1.running⟩ (p := p) (o := o)
        (fun ho' => hseparate (ho' ▸ ho)) error with ⟨t, ht, -⟩
      exact ⟨t, ht⟩
    case h_2 => exact ⟨s, rfl⟩
  · exact kept_step e hboth.1 hboth.2 hseparate ht

/-! ### A name that is swapped out -/

def smallBackend : Backend := ⟨1024, 1⟩

def smallProcess : Resources := ⟨some 128, some 1⟩

/-- A process is created, connects on the connection `c` and is swapped out. -/
def swappedOut (c : ConnId) (name : Str) : List Event :=
  [.addProcess 0 name smallProcess false, .runTask, .connected, .processConnection c name,
    .swapProcess 0 name (str ['s']), .swapConfirmation c]

theorem closed_after_swap :
    ∃ s, Lts.run (State.step smallBackend) {}
        (swappedOut 0 (str ['p']) ++ [.disconnected 0, .deleteProcess 0 (str ['p'])] ++
          swappedOut 1 (str ['p'])) = .ok s ∧ Tables s := by
  have hrun := Lts.run_test (State.step smallBackend) {}
    (swappedOut 0 (str ['p']) ++ [.disconnected 0, .deleteProcess 0 (str ['p'])] ++
      swappedOut 1 (str ['p'])) (fun _ => True) (by decide +kernel)
  rcases hrun with ⟨s, hs, -⟩
  exact ⟨s, hs, (process_tables smallBackend _ s (by decide +kernel) hs).1⟩

/-- The name of a process that is swapped out is taken again: it is in both tables, and
when the second process confirms its swap it is discarded. -/
theorem name_taken_twice :
    ∃ s t, Lts.run (State.step smallBackend) {}
        (swappedOut 0 (str ['p']) ++ (swappedOut 1 (str ['p'])).dropLast) = .ok s ∧
      s.step smallBackend (.swapConfirmation 1) = .ok t ∧
      ¬ Tables s ∧ ¬ Kept s (.swapConfirmation 1) t := by
  have hrun := Lts.run_test (State.step smallBackend) {}
    (swappedOut 0 (str ['p']) ++ (swappedOut 1 (str ['p'])).dropLast)
    (fun s => (s.apps 0).activeProcesses (str ['p']) = some 1 ∧
      (s.apps 0).swappedProcesses (str ['p']) = some 0 ∧ (s.procs 1).application = 0 ∧
      (s.procs 1).name = str ['p'] ∧ (s.procs 1).status = .SWAPPING_OUT ∧
      (s.step smallBackend (.swapConfirmation 1)).toOption.any fun t =>
        (t.procs 1).status = .SWAPPED_OUT ∧
          (t.apps 0).swappedProcesses (str ['p']) = some 0) (by decide +kernel)
  rcases hrun with ⟨s, hs, hactive, hswapped, happ, hname, hstatus, hnext⟩
  cases ht : s.step smallBackend (.swapConfirmation 1) with
  | error f => simp [ht, Except.toOption] at hnext
  | ok t =>
    simp only [ht, Except.toOption, Option.any_some, decide_eq_true_eq] at hnext
    refine ⟨s, t, hs, ht, fun htables => ?_, fun hkept => ?_⟩
    · rcases htables.apart 0 (str ['p']) with hnone | hnone
      · cases hactive.symm.trans hnone
      · cases hswapped.symm.trans hnone
    · have hin := hkept.confirmed 1 (by simp [hstatus]) hnext.1
      rw [happ, hname, hnext.2] at hin
      cases hin

end Praas.ControlPlane
