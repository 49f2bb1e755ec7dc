import Praas.ControlPlane.Steps

/-! # Where the processes stand

A process object stands in several places of the control plane at once: in a table
of its application, among those that are expected to connect, in the context of a
connection, with the backend. What its name, its application and its status must be
is fixed by the places it stands in, and this holds in every reachable state.
-/

namespace Praas.ControlPlane

inductive Place where
  | active (a : AppId) (name : Str)
  | swapped (a : AppId) (name : Str)
  | controlplane (a : AppId)
  | pending (name : Str)
  | task
  | connection (c : ConnId)
  | allocation
deriving DecidableEq

def State.At (s : State) : Place → ProcId → Prop
  | .active a name, p => (s.apps a).activeProcesses name = some p
  | .swapped a name, p => (s.apps a).swappedProcesses name = some p
  | .controlplane a, p => p ∈ (s.apps a).controlplaneProcesses
  | .pending name, p => s.pendingProcesses name = some p
  | .task, p => p ∈ s.tasks
  | .connection c, p => (s.conns c).bind Connection.context = some p
  | .allocation, p => (s.allocations p).isSome

/-- What a place requires of the name, the application and the status. -/
def Fits : Place → Str × AppId × Status → Prop
  | .active a name, (n, app, st) =>
    n = name ∧ app = a ∧ (st = .ALLOCATING ∨ st = .ALLOCATED ∨ st = .SWAPPING_OUT)
  | .swapped a name, (n, app, st) =>
    n = name ∧ app = a ∧ (st = .SWAPPED_OUT ∨ st = .CLOSED ∨ st = .FAILURE)
  | .controlplane a, (_, app, _) => app = a
  | .pending name, (n, _, st) => n = name ∧ st = .ALLOCATING
  | .task, (_, _, st) => st = .ALLOCATING
  | .connection _, (_, _, st) => st ≠ .ALLOCATING
  | .allocation, _ => True

/-- A process whose allocation is with the backend is not in a table of the other
origin. -/
def Admits : Origin → Place → Prop
  | .user, .controlplane _ => False
  | .controlplane, .active _ _ => False
  | .controlplane, .swapped _ _ => False
  | .controlplane, .controlplane _ => False
  | _, _ => True

structure WellFormed (s : State) : Prop where
  fits : ∀ pl p, s.At pl p → p < s.nextProc ∧ Fits pl (s.procs p).place
  tasks : s.tasks.Nodup
  apart : ∀ p ∈ s.tasks, ∀ name, s.pendingProcesses name ≠ some p
  waiting : ∀ p < s.nextProc, (s.procs p).status = .ALLOCATING →
    p ∈ s.tasks ∨ s.pendingProcesses (s.procs p).name = some p
  contexts : ∀ c c' p, s.At (.connection c) p → s.At (.connection c') p → c = c'
  origin : ∀ p o, s.allocations p = some o → ∀ pl, s.At pl p → Admits o pl

/-- No process is active and swapped out. -/
theorem WellFormed.not_swapped {s : State} (h : WellFormed s) {a a' : AppId} {name name' : Str}
    {p : ProcId} (hactive : s.At (.active a name) p) : ¬ s.At (.swapped a' name') p := by
  intro hswapped
  rcases (h.fits _ p hactive).2.2.2 with hst | hst | hst <;>
    rcases (h.fits _ p hswapped).2.2.2 with hst' | hst' | hst' <;> cases hst.symm.trans hst'

theorem wellFormed_new : WellFormed {} where
  fits pl p h := by
    cases pl <;> simp [State.At] at h
  tasks := List.nodup_nil
  apart _ h := absurd h List.not_mem_nil
  waiting _ h := absurd h (Nat.not_lt_zero _)
  contexts c _ p h := by simp [State.At] at h
  origin _ _ h := by cases h

section Changes

variable {s t : State}

/-- Processes leave places, and nothing else changes. -/
theorem WellFormed.leave (h : WellFormed s) (hnext : t.nextProc = s.nextProc)
    (hplace : ∀ p, (t.procs p).place = (s.procs p).place)
    (hat : ∀ pl p, t.At pl p → s.At pl p) (htasks : t.tasks = s.tasks)
    (hpending : t.pendingProcesses = s.pendingProcesses)
    (halloc : ∀ p o, t.allocations p = some o → s.allocations p = some o) : WellFormed t := by
  constructor
  case fits =>
    intro pl p hp
    rw [hnext, hplace]
    exact h.fits pl p (hat pl p hp)
  case tasks => exact htasks ▸ h.tasks
  case apart =>
    rw [htasks, hpending]
    exact h.apart
  case waiting =>
    intro p hp hstatus
    rw [hnext] at hp
    have hname : (t.procs p).name = (s.procs p).name := congrArg Prod.fst (hplace p)
    have hstatus' : (s.procs p).status = .ALLOCATING :=
      (Process.status_of_place (hplace p)).symm.trans hstatus
    rw [htasks, hpending, hname]
    exact h.waiting p hp hstatus'
  case contexts =>
    intro c c' p hc hc'
    exact h.contexts c c' p (hat _ p hc) (hat _ p hc')
  case origin =>
    intro p o ho pl hp
    exact h.origin p o (halloc p o ho) pl (hat pl p hp)

theorem WellFormed.setProcess (h : WellFormed s) {p : ProcId} {proc : Process}
    (hplace : proc.place = (s.procs p).place) : WellFormed (s.setProcess p proc) := by
  refine h.leave rfl (fun q => ?_) (fun _ _ hq => hq) rfl rfl (fun _ _ ho => ho)
  by_cases hqp : q = p
  · subst hqp
    simpa using hplace
  · simp [hqp]

/-- A process that is no longer being allocated gets another status. -/
theorem WellFormed.change (h : WellFormed s) {p : ProcId} {proc : Process}
    (hold : (s.procs p).status ≠ .ALLOCATING) (hnew : proc.status ≠ .ALLOCATING)
    (hfits : ∀ pl, s.At pl p → Fits pl proc.place) : WellFormed (s.setProcess p proc) := by
  constructor
  case fits =>
    intro pl q hq
    refine ⟨(h.fits pl q hq).1, ?_⟩
    by_cases hqp : q = p
    · subst hqp
      simpa using hfits pl hq
    · simpa [hqp] using (h.fits pl q hq).2
  case tasks => exact h.tasks
  case apart => exact h.apart
  case waiting =>
    intro q hq hstatus
    by_cases hqp : q = p
    · subst hqp
      exact absurd (by simpa using hstatus) hnew
    · simp only [State.setProcess_procs, Function.update_of_ne hqp] at hstatus ⊢
      exact h.waiting q hq hstatus
  case contexts => exact h.contexts
  case origin => exact h.origin

/-- A process enters a table of its application. -/
theorem WellFormed.enter (h : WellFormed s) {p : ProcId} {k : Place}
    (hnext : t.nextProc = s.nextProc) (hprocs : t.procs = s.procs) (htasks : t.tasks = s.tasks)
    (hpending : t.pendingProcesses = s.pendingProcesses) (hconns : t.conns = s.conns)
    (halloc : t.allocations = s.allocations)
    (hat : ∀ pl q, t.At pl q → s.At pl q ∨ q = p ∧ pl = k)
    (hp : p < s.nextProc) (hfits : Fits k (s.procs p).place)
    (hadmits : ∀ o, s.allocations p = some o → Admits o k) : WellFormed t := by
  constructor
  case fits =>
    intro pl q hq
    rw [hnext, hprocs]
    rcases hat pl q hq with hold | ⟨rfl, rfl⟩
    · exact h.fits pl q hold
    · exact ⟨hp, hfits⟩
  case tasks => exact htasks ▸ h.tasks
  case apart =>
    rw [htasks, hpending]
    exact h.apart
  case waiting =>
    rw [hnext, hprocs, htasks, hpending]
    exact h.waiting
  case contexts =>
    have hsame : ∀ c q, t.At (.connection c) q → s.At (.connection c) q := by
      intro c q hq
      simpa [State.At, hconns] using hq
    intro c c' q hc hc'
    exact h.contexts c c' q (hsame c q hc) (hsame c' q hc')
  case origin =>
    intro q o ho pl hq
    rw [halloc] at ho
    rcases hat pl q hq with hold | ⟨rfl, rfl⟩
    · exact h.origin q o ho pl hold
    · exact hadmits o ho

/-- A process is created: it stands in the queue of the server, with the backend, and
perhaps in one more place. -/
theorem WellFormed.allocate (h : WellFormed s) {proc : Process} {origin : Origin}
    (hstatus : proc.status = .ALLOCATING) (hprocs : t.procs = s.procs)
    (hnext : t.nextProc = s.nextProc) (htasks : t.tasks = s.tasks)
    (hpending : t.pendingProcesses = s.pendingProcesses) (hconns : t.conns = s.conns)
    (halloc : t.allocations = s.allocations)
    (hat : ∀ pl q, t.At pl q → s.At pl q ∨
      q = s.nextProc ∧ Fits pl proc.place ∧ Admits origin pl) :
    WellFormed (t.allocate proc origin) := by
  have hfresh : ∀ pl, ¬ s.At pl s.nextProc := by
    intro pl hp
    exact lt_irrefl _ (h.fits pl _ hp).1
  have hself : (t.allocate proc origin).procs s.nextProc = proc := by
    simp [← hnext]
  have hother : ∀ q < s.nextProc, (t.allocate proc origin).procs q = s.procs q := by
    intro q hq
    simp [hnext, hprocs, hq.ne]
  -- an occurrence is one of before, or one of the new process
  have hwhere : ∀ pl q, (t.allocate proc origin).At pl q → s.At pl q ∨
      q = s.nextProc ∧ Fits pl proc.place ∧ Admits origin pl := by
    intro pl q hq
    cases pl with
    | active a name => exact hat _ q hq
    | swapped a name => exact hat _ q hq
    | controlplane a => exact hat _ q hq
    | pending name => exact hat _ q hq
    | connection c => exact hat _ q hq
    | task =>
      rcases List.mem_append.1 hq with hq | hq
      · exact hat .task q hq
      · rw [List.mem_singleton.1 hq, hnext]
        exact .inr ⟨rfl, hstatus, by cases origin <;> trivial⟩
    | allocation =>
      by_cases hnew : q = s.nextProc
      · exact .inr ⟨hnew, trivial, by cases origin <;> trivial⟩
      · refine .inl ?_
        simpa [State.At, hnext, hnew, halloc] using hq
  constructor
  case fits =>
    intro pl q hq
    rw [State.allocate_nextProc, hnext]
    rcases hwhere pl q hq with hold | ⟨rfl, hfits, -⟩
    · rw [hother q (h.fits pl q hold).1]
      exact ⟨Nat.lt_succ_of_lt (h.fits pl q hold).1, (h.fits pl q hold).2⟩
    · rw [hself]
      exact ⟨Nat.lt_succ_self _, hfits⟩
  case tasks =>
    rw [State.allocate_tasks, htasks, hnext, List.nodup_append]
    refine ⟨h.tasks, List.nodup_singleton _, fun q hq r hr => ?_⟩
    rintro rfl
    rw [List.mem_singleton.1 hr] at hq
    exact hfresh .task hq
  case apart =>
    intro q hq name hpend
    rw [State.allocate_pendingProcesses, hpending] at hpend
    rw [State.allocate_tasks, htasks, hnext] at hq
    rcases List.mem_append.1 hq with hq | hq
    · exact h.apart q hq name hpend
    · rw [List.mem_singleton.1 hq] at hpend
      exact hfresh (.pending name) hpend
  case waiting =>
    intro q hq hst
    rw [State.allocate_tasks, State.allocate_pendingProcesses, htasks, hpending, hnext]
    rw [State.allocate_nextProc, hnext] at hq
    rcases Nat.lt_succ_iff_lt_or_eq.1 hq with hlt | rfl
    · rw [hother q hlt] at hst ⊢
      exact (h.waiting q hlt hst).imp (List.mem_append_left _) id
    · exact .inl (by simp)
  case contexts =>
    have hsame : ∀ c q, (t.allocate proc origin).At (.connection c) q → s.At (.connection c) q := by
      intro c q hq
      simpa [State.At, hconns] using hq
    intro c c' q hc hc'
    exact h.contexts c c' q (hsame c q hc) (hsame c' q hc')
  case origin =>
    intro q o ho pl hq
    rw [State.allocate_allocations, hnext, halloc] at ho
    by_cases hnew : q = s.nextProc
    · subst hnew
      rw [Function.update_self] at ho
      rcases hwhere pl _ hq with hold | ⟨-, -, hadmits⟩
      · exact absurd hold (hfresh pl)
      · exact Option.some.inj ho ▸ hadmits
    · rw [Function.update_of_ne hnew] at ho
      rcases hwhere pl q hq with hold | ⟨hq', -⟩
      · exact h.origin q o ho pl hold
      · exact absurd hq' hnew

end Changes

/-! ## The places after an operation -/

section Places

variable {s : State}

theorem at_setActive {a : AppId} {name : Str} {v : Option ProcId} {k : Place} {q : ProcId} :
    (s.setActive a name v).At k q ↔
      k = .active a name ∧ v = some q ∨ k ≠ .active a name ∧ s.At k q := by
  cases k with
  | active a' name' =>
    by_cases ha : a' = a
    · subst ha
      by_cases hname : name' = name
      · subst hname
        simp [State.At]
      · simp [State.At, hname]
    · simp [State.At, ha]
  | swapped a' name' =>
    by_cases ha : a' = a
    · subst ha
      simp [State.At]
    · simp [State.At, ha]
  | controlplane a' =>
    by_cases ha : a' = a
    · subst ha
      simp [State.At]
    · simp [State.At, ha]
  | _ => simp [State.At]

theorem at_setSwapped {a : AppId} {name : Str} {v : Option ProcId} {k : Place} {q : ProcId} :
    (s.setSwapped a name v).At k q ↔
      k = .swapped a name ∧ v = some q ∨ k ≠ .swapped a name ∧ s.At k q := by
  cases k with
  | swapped a' name' =>
    by_cases ha : a' = a
    · subst ha
      by_cases hname : name' = name
      · subst hname
        simp [State.At]
      · simp [State.At, hname]
    · simp [State.At, ha]
  | active a' name' =>
    by_cases ha : a' = a
    · subst ha
      simp [State.At]
    · simp [State.At, ha]
  | controlplane a' =>
    by_cases ha : a' = a
    · subst ha
      simp [State.At]
    · simp [State.At, ha]
  | _ => simp [State.At]

theorem at_addControlplane {a : AppId} {p : ProcId} {k : Place} {q : ProcId} :
    (s.addControlplane a p).At k q ↔ s.At k q ∨ q = p ∧ k = .controlplane a := by
  cases k with
  | active a' name' =>
    by_cases ha : a' = a
    · subst ha
      simp [State.At]
    · simp [State.At, ha]
  | swapped a' name' =>
    by_cases ha : a' = a
    · subst ha
      simp [State.At]
    · simp [State.At, ha]
  | controlplane a' =>
    by_cases ha : a' = a
    · subst ha
      simp [State.At]
    · simp [State.At, ha]
  | _ => simp [State.At]

theorem WellFormed.setActive_none (h : WellFormed s) (a : AppId) (name : Str) :
    WellFormed (s.setActive a name none) := by
  refine h.leave rfl (fun _ => rfl) (fun pl q hq => ?_) rfl rfl (fun _ _ ho => ho)
  rcases at_setActive.1 hq with ⟨-, hnone⟩ | ⟨-, hold⟩
  · cases hnone
  · exact hold

theorem WellFormed.setSwapped_none (h : WellFormed s) (a : AppId) (name : Str) :
    WellFormed (s.setSwapped a name none) := by
  refine h.leave rfl (fun _ => rfl) (fun pl q hq => ?_) rfl rfl (fun _ _ ho => ho)
  rcases at_setSwapped.1 hq with ⟨-, hnone⟩ | ⟨-, hold⟩
  · cases hnone
  · exact hold

theorem WellFormed.takeAllocation (h : WellFormed s) (p : ProcId) :
    WellFormed { s with allocations := Function.update s.allocations p none } := by
  have halloc : ∀ q o, Function.update s.allocations p none q = some o →
      s.allocations q = some o := by
    intro q o ho
    by_cases hqp : q = p
    · subst hqp
      simp at ho
    · rwa [Function.update_of_ne hqp] at ho
  refine h.leave rfl (fun _ => rfl) (fun pl q hq => ?_) rfl rfl halloc
  cases pl with
  | allocation =>
    rcases Option.isSome_iff_exists.1 hq with ⟨o, ho⟩
    exact Option.isSome_iff_exists.2 ⟨o, halloc q o ho⟩
  | _ => exact hq

end Places

/-! ## The operations -/

section Operations

variable {s t : State} {b : Backend}

theorem wellFormed_addProcess (h : WellFormed s) {a : AppId} {name : Str}
    {resources : Resources} {wait : Bool}
    (hadd : s.addProcess b a name resources wait = .ok t) : WellFormed t := by
  rcases addProcess_ok hadd with ⟨-, -, -, rfl⟩
  refine h.allocate rfl rfl rfl rfl rfl rfl rfl (fun pl q hq => ?_)
  rcases at_setActive.1 hq with ⟨rfl, hnew⟩ | ⟨-, hold⟩
  · exact .inr ⟨(Option.some.inj hnew).symm, ⟨rfl, rfl, .inl rfl⟩, trivial⟩
  · exact .inl hold

theorem wellFormed_getControlplaneProcess (h : WellFormed s) (a : AppId) (i : Invocation) :
    WellFormed (s.getControlplaneProcess a i).1 := by
  rcases getControlplaneProcess_cases s a i with ⟨p, -, hadded⟩ | ⟨-, hcreated⟩
  · rw [hadded]
    exact h.setProcess (Process.place_addInvocation _ _)
  · rw [hcreated]
    exact h.allocate rfl rfl rfl rfl rfl rfl rfl (fun _ _ hq => .inl hq)

theorem wellFormed_swapProcess (h : WellFormed s) (a : AppId) (name path : Str) :
    WellFormed (s.swapProcess a name path).1 := by
  rcases swapProcess_cases s a name path with hsame | ⟨p, -, hallocated, hswapping⟩
  · rw [hsame]
    exact h
  · rw [hswapping]
    have hplace := Process.place_swap
      { s.procs p with status := .SWAPPING_OUT, swapPath := some path }
    have hnew := Process.status_of_place hplace
    refine h.change (by simp [hallocated]) (fun hst => ?_) (fun pl hpl => ?_)
    · cases hnew.symm.trans hst
    · -- an active process may be allocated or swapping out
      have hfits := (h.fits pl p hpl).2
      rw [hplace]
      cases pl <;> simp_all [Fits, Process.place]

/-- The process has left the active table, and its status is changed. -/
theorem wellFormed_swappedOut (h : WellFormed s) {a : AppId} {name : Str} {p : ProcId}
    (hactive : (s.apps a).activeProcesses name = some p)
    (hstatus : (s.procs p).status = .SWAPPING_OUT) :
    WellFormed ((s.setActive a name none).setStatus p .SWAPPED_OUT) := by
  have hself := (h.fits (.active a name) p hactive).2
  refine (h.setActive_none a name).change (by simp [hstatus]) (by simp) (fun pl hpl => ?_)
  rcases at_setActive.1 hpl with ⟨-, hnone⟩ | ⟨hne, hold⟩
  · cases hnone
  · have hfits := (h.fits pl p hold).2
    cases pl with
    | active a' name' =>
      exact absurd (congrArg₂ Place.active (hfits.2.1.symm.trans hself.2.1)
        (hfits.1.symm.trans hself.1)) hne
    | _ => simp_all [Fits, Process.place]

theorem wellFormed_swappedProcess (h : WellFormed s) {a : AppId} {name : Str}
    (hswap : s.swappedProcess a name = .ok t) : WellFormed t := by
  rcases swappedProcess_ok hswap with ⟨p, hactive, hstatus, rfl⟩
  have hout := wellFormed_swappedOut h hactive hstatus
  have hself := h.fits (.active a name) p hactive
  split_ifs
  · exact hout
  · refine hout.enter (p := p) (k := .swapped a name) rfl rfl rfl rfl rfl rfl
      (fun pl q hq => ?_) hself.1 ?_ (fun o ho => ?_)
    · rcases at_setSwapped.1 hq with ⟨rfl, hnew⟩ | ⟨-, hold⟩
      · exact .inr ⟨(Option.some.inj hnew).symm, rfl⟩
      · exact .inl hold
    · simpa [Fits, Process.place, State.setStatus] using ⟨hself.2.1, hself.2.2.1⟩
    · have hadmits := h.origin p o ho (.active a name) hactive
      cases o with
      | user => trivial
      | controlplane => exact hadmits

/-- A process may fail once it has left the active table. -/
theorem WellFormed.fail (h : WellFormed s) {p : ProcId}
    (hstatus : (s.procs p).status ≠ .ALLOCATING)
    (hactive : ∀ a name, (s.apps a).activeProcesses name ≠ some p) :
    WellFormed (s.setStatus p .FAILURE) := by
  refine h.change hstatus (by simp) (fun pl hpl => ?_)
  have hfits := (h.fits pl p hpl).2
  cases pl with
  | active a name => exact absurd hpl (hactive a name)
  | _ => simp_all [Fits, Process.place]

theorem wellFormed_closedProcess (h : WellFormed s) {p : ProcId}
    (hstatus : (s.procs p).status ≠ .ALLOCATING) : WellFormed (s.closedProcess p) := by
  have hself : ∀ a name, (s.apps a).activeProcesses name = some p →
      name = (s.procs p).name ∧ a = (s.procs p).application := by
    intro a name hactive
    have hfits := (h.fits (.active a name) p hactive).2
    exact ⟨hfits.1.symm, hfits.2.1.symm⟩
  unfold State.closedProcess
  dsimp only
  split_ifs with hswapped hactive
  · -- the entry is removed before the status changes, to the same effect
    have hremoved := h.setActive_none (s.procs p).application (s.procs p).name
    refine hremoved.fail hstatus (fun a name hentry => ?_)
    have hentry' := at_setActive (k := .active a name).1 hentry
    rcases hentry' with ⟨-, hnone⟩ | ⟨hne, hold⟩
    · cases hnone
    · rcases hself a name hold with ⟨rfl, rfl⟩
      exact hne rfl
  · refine (h.fail hstatus fun a name hentry => ?_).setSwapped_none _ _
    rcases hself a name hentry with ⟨rfl, rfl⟩
    exact hactive (Option.isSome_iff_exists.2 ⟨p, hentry⟩)
  · refine h.change hstatus (by simp [Process.closeConnection]) (fun pl hpl => ?_)
    have hfits := (h.fits pl p hpl).2
    have hout : (s.procs p).status = .SWAPPED_OUT := not_not.1 hswapped
    cases pl <;> simp_all [Fits, Process.place, Process.closeConnection]

theorem wellFormed_deleteProcess (h : WellFormed s) {a : AppId} {name : Str}
    (hdelete : s.deleteProcess a name = .ok t) : WellFormed t := by
  rw [(deleteProcess_ok hdelete).2]
  exact h.setSwapped_none a name

theorem wellFormed_allocated (h : WellFormed s) {p : ProcId} {o : Origin}
    (ho : s.allocations p = some o) :
    WellFormed ({ s with allocations := Function.update s.allocations p none }.allocated p o) := by
  have hp : p < s.nextProc := (h.fits .allocation p (Option.isSome_iff_exists.2 ⟨o, ho⟩)).1
  have hplace : ((s.procs p).setHandle.createdCallback none).place = (s.procs p).place := by simp
  have hset := (h.takeAllocation p).setProcess (p := p) hplace
  cases o with
  | user => exact hset
  | controlplane =>
    refine hset.enter (p := p) (k := .controlplane (s.procs p).application) rfl rfl rfl rfl rfl
      rfl (fun pl q hq => at_addControlplane.1 hq) hp ?_ (fun o' ho' => ?_)
    · have happ := congrArg (fun x => x.2.1) hplace
      simpa [Fits, Process.place] using happ
    · simp at ho'

theorem wellFormed_allocationFailed (h : WellFormed s) {p : ProcId} {o : Origin} {error : Str}
    (hfail : { s with allocations := Function.update s.allocations p none }.allocationFailed p o
      error = .ok t) : WellFormed t := by
  have hplace : ((s.procs p).createdCallback (some error)).place = (s.procs p).place := by simp
  have hset := (h.takeAllocation p).setProcess (p := p) hplace
  rcases allocationFailed_ok hfail with ⟨-, -, rfl⟩ | ⟨-, rfl⟩
  · exact hset.setActive_none _ _
  · exact hset

theorem wellFormed_runTask (h : WellFormed s) (hrun : s.runTask = .ok t) : WellFormed t := by
  rcases runTask_ok hrun with rfl | ⟨p, rest, htasks, hfree, rfl⟩
  · exact h
  · have hnodup : (p :: rest).Nodup := htasks ▸ h.tasks
    have htask : p ∈ s.tasks := htasks ▸ List.mem_cons_self
    have hp := h.fits .task p htask
    have hrest : ∀ q ∈ rest, q ∈ s.tasks := fun q hq => htasks ▸ List.mem_cons_of_mem _ hq
    -- the insertion only adds the entry of `p`
    have hpending : ∀ name q,
        Function.update s.pendingProcesses (s.procs p).name (some p) name = some q →
        name = (s.procs p).name ∧ q = p ∨ s.pendingProcesses name = some q := by
      intro name q hq
      by_cases hname : name = (s.procs p).name
      · subst hname
        rw [Function.update_self] at hq
        exact .inl ⟨rfl, (Option.some.inj hq).symm⟩
      · rw [Function.update_of_ne hname] at hq
        exact .inr hq
    constructor
    case fits =>
      intro pl q hq
      cases pl with
      | pending name =>
        rcases hpending name q hq with ⟨rfl, rfl⟩ | hold
        · exact ⟨hp.1, rfl, hp.2⟩
        · exact h.fits (.pending name) q hold
      | task => exact h.fits .task q (hrest q hq)
      | _ => exact h.fits _ q hq
    case tasks => exact hnodup.of_cons
    case apart =>
      intro q hq name hpend
      rcases hpending name q hpend with ⟨-, rfl⟩ | hold
      · exact (List.nodup_cons.1 hnodup).1 hq
      · exact h.apart q (hrest q hq) name hold
    case waiting =>
      intro q hq hstatus
      show q ∈ rest ∨ Function.update s.pendingProcesses (s.procs p).name (some p)
        (s.procs q).name = some q
      rcases h.waiting q hq hstatus with htask | hpend
      · rcases List.mem_cons.1 (htasks ▸ htask) with rfl | htail
        · exact .inr (Function.update_self _ _ _)
        · exact .inl htail
      · refine .inr ?_
        have hname : (s.procs q).name ≠ (s.procs p).name := by
          intro heq
          rw [heq, hfree] at hpend
          cases hpend
        rw [Function.update_of_ne hname]
        exact hpend
    case contexts => exact h.contexts
    case origin =>
      intro q o ho pl hq
      cases pl with
      | pending name => cases o <;> trivial
      | task => cases o <;> trivial
      | _ => exact h.origin q o ho _ hq

theorem wellFormed_handleConnection (h : WellFormed s) {c : ConnId} {conn : Connection}
    {name : Str} (hconn : s.handleConnection c conn name = .ok t) : WellFormed t := by
  rcases handleConnection_ok hconn with rfl | ⟨p, hpending, -, rfl⟩
  · exact h
  have hp := h.fits (.pending name) p hpending
  have hplace := Process.place_connect hp.2.2 c
  -- before, `p` is in no context
  have hnew : ∀ c', ¬ s.At (.connection c') p := fun c' hc' =>
    (h.fits (.connection c') p hc').2 hp.2.2
  have hpend : ∀ name' q, Function.update s.pendingProcesses name none name' = some q →
      name' ≠ name ∧ s.pendingProcesses name' = some q := by
    intro name' q hq
    by_cases hname : name' = name
    · subst hname
      simp at hq
    · rw [Function.update_of_ne hname] at hq
      exact ⟨hname, hq⟩
  have hcontext : ∀ c' q,
      (Function.update s.conns c (some { conn with context := some p }) c').bind
        Connection.context = some q → c' = c ∧ q = p ∨ s.At (.connection c') q := by
    intro c' q hq
    by_cases hc : c' = c
    · subst hc
      rw [Function.update_self] at hq
      exact .inl ⟨rfl, (Option.some.inj hq).symm⟩
    · rw [Function.update_of_ne hc] at hq
      exact .inr hq
  constructor
  case fits =>
    intro pl q hq
    by_cases hqp : q = p
    · subst hqp
      refine ⟨hp.1, ?_⟩
      simp only [State.setProcess_procs, Function.update_self, hplace]
      cases pl with
      | active a' name' =>
        have hfits := (h.fits (.active a' name') q hq).2
        exact ⟨hfits.1, hfits.2.1, .inr (.inl rfl)⟩
      | swapped a' name' =>
        have hfits := (h.fits (.swapped a' name') q hq).2
        simp [Fits, Process.place, hp.2.2] at hfits
      | controlplane a' => exact (h.fits (.controlplane a') q hq).2
      | pending name' =>
        rcases hpend name' q hq with ⟨hne, hold⟩
        have hfits := (h.fits (.pending name') q hold).2
        exact absurd (hfits.1.symm.trans hp.2.1) hne
      | task => exact absurd hpending (h.apart q hq name)
      | connection c' => simp [Fits]
      | allocation => trivial
    · simp only [State.setProcess_procs, Function.update_of_ne hqp]
      cases pl with
      | pending name' => exact h.fits (.pending name') q (hpend name' q hq).2
      | connection c' =>
        rcases hcontext c' q hq with ⟨-, rfl⟩ | hold
        · exact absurd rfl hqp
        · exact h.fits (.connection c') q hold
      | _ => exact h.fits _ q hq
  case tasks => exact h.tasks
  case apart =>
    intro q hq name' hpend'
    exact h.apart q hq name' (hpend name' q hpend').2
  case waiting =>
    intro q hq hstatus
    by_cases hqp : q = p
    · subst hqp
      have hst := congrArg (fun x => x.2.2) hplace
      simp only [State.setProcess_procs, Function.update_self] at hstatus
      cases hst.symm.trans hstatus
    · simp only [State.setProcess_procs, Function.update_of_ne hqp] at hstatus ⊢
      refine (h.waiting q hq hstatus).imp id (fun hold => ?_)
      have hname : (s.procs q).name ≠ name := by
        intro heq
        rw [heq, hpending] at hold
        exact hqp (Option.some.inj hold).symm
      rw [Function.update_of_ne hname]
      exact hold
  case contexts =>
    intro c₁ c₂ q h₁ h₂
    rcases hcontext c₁ q h₁ with ⟨rfl, rfl⟩ | hold₁
    · rcases hcontext c₂ q h₂ with ⟨rfl, -⟩ | hold₂
      · rfl
      · exact absurd hold₂ (hnew c₂)
    · rcases hcontext c₂ q h₂ with ⟨rfl, rfl⟩ | hold₂
      · exact absurd hold₁ (hnew c₁)
      · exact h.contexts c₁ c₂ q hold₁ hold₂
  case origin =>
    intro q o ho pl hq
    cases pl with
    | pending name' => cases o <;> trivial
    | connection c' => cases o <;> trivial
    | _ => exact h.origin q o ho _ hq

theorem wellFormed_handleDisconnection (h : WellFormed s) {c : ConnId} {conn : Connection}
    (hconn : s.conns c = some conn) : WellFormed (s.handleDisconnection conn) := by
  unfold State.handleDisconnection
  split
  · exact h.leave rfl (fun _ => rfl) (fun _ _ hq => hq) rfl rfl (fun _ _ ho => ho)
  case h_2 p hcontext =>
    have hat : s.At (.connection c) p := by simp [State.At, hconn, hcontext]
    have hcounted := h.leave (t := s.deregister)
      rfl (fun _ => rfl) (fun _ _ hq => hq) rfl rfl (fun _ _ ho => ho)
    exact wellFormed_closedProcess hcounted (h.fits (.connection c) p hat).2

/-- A connection loses its process, or keeps the one it has. -/
theorem WellFormed.setConn (h : WellFormed s) {c : ConnId} {v : Option Connection}
    (hv : ∀ p, v.bind Connection.context = some p → s.At (.connection c) p) :
    WellFormed { s with conns := Function.update s.conns c v } := by
  refine h.leave rfl (fun _ => rfl) (fun pl q hq => ?_) rfl rfl (fun _ _ ho => ho)
  cases pl with
  | connection c' =>
    by_cases hc : c' = c
    · subst hc
      have hq' : (Function.update s.conns c' v c').bind Connection.context = some q := hq
      rw [Function.update_self] at hq'
      exact hv q hq'
    · simpa [State.At, hc] using hq
  | _ => exact hq

/-- The entry that the closure of `p` removes, if it removes one. -/
def State.found (s : State) (p : ProcId) : Place :=
  if ((s.apps (s.procs p).application).activeProcesses (s.procs p).name).isSome then
    .active (s.procs p).application (s.procs p).name
  else .swapped (s.procs p).application (s.procs p).name

theorem at_closedProcess_iff {p q : ProcId} {k : Place} :
    (s.closedProcess p).At k q ↔ ((s.procs p).status ≠ .SWAPPED_OUT → k ≠ s.found p) ∧ s.At k q := by
  unfold State.found
  rcases closedProcess_cases s p with ⟨hout, hclosed⟩ | ⟨hout, r, hactive, hclosed⟩ |
    ⟨hout, hactive, hclosed⟩
  · rw [hclosed]
    exact ⟨fun h => ⟨fun hnot => absurd hout hnot, h⟩, And.right⟩
  · rw [hclosed, at_setActive, if_pos (by simp [hactive])]
    constructor
    · rintro (⟨-, hnone⟩ | ⟨hne, hat⟩)
      · cases hnone
      · exact ⟨fun _ => hne, hat⟩
    · rintro ⟨hne, hat⟩
      exact .inr ⟨hne hout, hat⟩
  · rw [hclosed, at_setSwapped, if_neg (by simp [hactive])]
    constructor
    · rintro (⟨-, hnone⟩ | ⟨hne, hat⟩)
      · cases hnone
      · exact ⟨fun _ => hne, hat⟩
    · rintro ⟨hne, hat⟩
      exact .inr ⟨hne hout, hat⟩

/-- A process that is closed enters no table. -/
theorem at_closedProcess {p q : ProcId} {k : Place} (h : (s.closedProcess p).At k q) :
    s.At k q :=
  (at_closedProcess_iff.1 h).2

theorem at_handleDisconnection {q : ProcId} {conn : Connection} {k : Place}
    (h : (s.handleDisconnection conn).At k q) : s.At k q := by
  cases hcontext : conn.context with
  | none =>
    unfold State.handleDisconnection at h
    rw [hcontext] at h
    exact h
  | some r =>
    rw [handleDisconnection_some hcontext] at h
    have hold := at_closedProcess h
    exact hold

theorem wellFormed_handleClosure (h : WellFormed s) {c : ConnId} {conn : Connection}
    (hconn : s.conns c = some conn) : WellFormed (s.handleClosure c conn) := by
  refine (wellFormed_handleDisconnection h hconn).setConn (fun p hp => ?_)
  simpa [State.At, conns_handleDisconnection, hconn] using hp

theorem wellFormed_disconnected (h : WellFormed s) {c : ConnId} {conn : Connection}
    (hconn : s.conns c = some conn) : WellFormed (s.disconnected c conn) :=
  (wellFormed_handleDisconnection h hconn).setConn fun _ hp => by cases hp

end Operations

/-- Every event keeps the places in order. -/
theorem wellFormed_step {b : Backend} {s t : State} (e : Event) (h : WellFormed s)
    (hstep : s.step b e = .ok t) : WellFormed t := by
  cases performs_of_step hstep with
  | same => exact h
  | addProcess hadd => exact wellFormed_addProcess h hadd
  | invoke a i => exact wellFormed_getControlplaneProcess h a i
  | swapProcess a name path => exact wellFormed_swapProcess h a name path
  | swappedProcess hswap => exact wellFormed_swappedProcess h hswap
  | deleteProcess hdelete => exact wellFormed_deleteProcess h hdelete
  | allocated ho => exact wellFormed_allocated h ho
  | allocationFailed ho hfail => exact wellFormed_allocationFailed h hfail
  | instanceConnected error hconnecting =>
    refine h.setProcess ?_
    rw [Process.place_instanceConnected]
    rfl
  | runTask hrun => exact wellFormed_runTask h hrun
  | connected =>
    have hconn := h.setConn (c := s.nextConn) (v := some {}) (fun p hp => by cases hp)
    exact hconn.leave rfl (fun _ => rfl) (fun _ _ hq => hq) rfl rfl (fun _ _ ho => ho)
  | processConnection hconn hcontext hregister => exact wellFormed_handleConnection h hregister
  | invocationResult id returnCode result hconn hcontext =>
    exact h.setProcess (Process.place_finishInvocation _ _ _ _)
  | swapConfirmation hconn hcontext hswap => exact wellFormed_swappedProcess h hswap
  | processClosure hconn hcontext => exact wellFormed_handleClosure h hconn
  | disconnected hconn => exact wellFormed_disconnected h hconn

theorem wellFormed_run {b : Backend} {es : List Event} {s : State}
    (h : Lts.run (State.step b) {} es = .ok s) : WellFormed s :=
  Lts.run_always (fun _ e _ hs hstep => wellFormed_step e hs hstep) wellFormed_new h

end Praas.ControlPlane
