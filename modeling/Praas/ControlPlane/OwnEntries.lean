import Praas.ControlPlane.Closure
import Praas.ControlPlane.Origins

/-! # The entries that a closure removes

`closed_process` is given a process object and removes what stands under the name of the
object, in the active table or else in the swapped one.
* `onlyOwn_iff` — when a closure removes no entry of another process;
* `keysOwned_step` — what one event preserves;
* `closed_process_own` — while no name is taken that an object still has, every process
  that is referred to closes its own entries only.
-/

namespace Praas.ControlPlane

/-! ## One closure -/

/-- The closure of `p` leaves every other process where it stands, with its status. -/
structure OnlyOwn (s : State) (p : ProcId) : Prop where
  entries : ∀ pl q, q ≠ p → s.At pl q → (s.closedProcess p).At pl q
  status : ∀ q, q ≠ p → ((s.closedProcess p).procs q).status = (s.procs q).status

/-- The closure of `p` looks for no entry, or the one it finds is that of `p`. -/
def FindsOwn (s : State) (p : ProcId) : Prop :=
  (s.procs p).status = .SWAPPED_OUT ∨
    match (s.apps (s.procs p).application).activeProcesses (s.procs p).name with
    | some q => q = p
    | none => ∀ q ∈ (s.apps (s.procs p).application).swappedProcesses (s.procs p).name, q = p

section Closure

variable {s : State} {p : ProcId}

theorem findsOwn_iff :
    FindsOwn s p ↔ (s.procs p).status = .SWAPPED_OUT ∨ ∀ q, s.At (s.found p) q → q = p := by
  unfold FindsOwn State.found
  refine or_congr_right ?_
  cases hactive : (s.apps (s.procs p).application).activeProcesses (s.procs p).name with
  | some r =>
    rw [if_pos Option.isSome_some]
    constructor
    · rintro rfl q hat
      exact Option.some.inj (Eq.trans hat.symm hactive)
    · intro h
      exact h r hactive
  | none => exact Iff.rfl

theorem onlyOwn_iff : OnlyOwn s p ↔ FindsOwn s p := by
  rw [findsOwn_iff]
  constructor
  · intro honly
    by_contra hnot
    push Not at hnot
    rcases hnot with ⟨hout, q, hat, hne⟩
    have hkept := honly.entries (s.found p) q hne hat
    exact (at_closedProcess_iff.1 hkept).1 hout rfl
  · intro hfinds
    constructor
    · intro pl q hq hat
      refine at_closedProcess_iff.2 ⟨fun hout hpl => ?_, hat⟩
      rw [hpl] at hat
      exact hq (hfinds.resolve_left hout q hat)
    · intro q hq
      rw [procs_closedProcess hq]

end Closure

/-! ## Entries and references -/

/-- The name and the application of an entry in the active or the swapped table. -/
def Place.key : Place → Option (Str × AppId)
  | .active a name => some (name, a)
  | .swapped a name => some (name, a)
  | _ => none

/-- The process object is referred to. -/
def State.Live (s : State) (p : ProcId) : Prop := ∃ pl, s.At pl p

theorem Comes.old_or_new {s t : State} {b : Backend} {e : Event} {pl : Place} {p : ProcId}
    (h : Comes b s e t p pl) :
    (∃ pl', s.At pl' p ∧ ∀ k ∈ pl.key, pl'.key = some k) ∨ New b s e t pl p := by
  cases h with
  | stays pl hat => exact .inl ⟨pl, hat, fun _ hk => hk⟩
  | swapped a name hat hstatus => exact .inl ⟨.active a name, hat, fun _ hk => hk⟩
  | created pl hnew => exact .inr hnew
  | reported a hat => exact .inl ⟨.allocation, hat, fun k hk => by cases hk⟩
  | inserted name hat => exact .inl ⟨.task, hat, fun k hk => by cases hk⟩
  | registered c name hat => exact .inl ⟨.pending name, hat, fun k hk => by cases hk⟩

/-! ## Runs -/

/-- A user's process gets a name that no object of its application has that is still referred
to, a process for an invocation one under which there is no entry. -/
def CreatesUnused (b : Backend) (s : State) : Event → Prop
  | .addProcess a name resources wait =>
    CreatesAs b s (.addProcess a name resources wait) name →
      ∀ p, s.Live p → (s.procs p).owner ≠ (name, a)
  | .invoke a _ =>
    s.available a = none →
      let name := State.controlplaneName (s.apps a).controlplaneProcesses.length
      (s.apps a).activeProcesses name = none ∧ (s.apps a).swappedProcesses name = none
  | _ => True

/-- An object with the name of an entry is the one in the entry. -/
def KeysOwned (s : State) : Prop :=
  ∀ pl q k p, pl.key = some k → s.At pl q → s.Live p → (s.procs p).owner = k → p = q

section Runs

variable {s t : State} {b : Backend} {e : Event} {p : ProcId}

theorem keysOwned_new : KeysOwned {} := by
  rintro pl q k p - - ⟨pl', hp⟩ -
  exact absurd (wellFormed_new.fits pl' p hp).1 (Nat.not_lt_zero p)

theorem KeysOwned.onlyOwn (h : KeysOwned s) (hp : s.Live p) : OnlyOwn s p := by
  rw [onlyOwn_iff]
  refine .inr ?_
  cases hactive : (s.apps (s.procs p).application).activeProcesses (s.procs p).name with
  | some q => exact (h (.active _ _) q _ p rfl hactive hp rfl).symm
  | none => exact fun q hq => (h (.swapped _ _) q _ p rfl hq hp rfl).symm

/-- A process in an entry has its name. -/
theorem WellFormed.owner_of_key (h : WellFormed s) {pl : Place} {k : Str × AppId}
    (hkey : pl.key = some k) (hat : s.At pl p) : (s.procs p).owner = k := by
  have hfits := (h.fits pl p hat).2
  cases pl with
  | active a name =>
    cases hkey
    exact Prod.ext hfits.1 hfits.2.1
  | swapped a name =>
    cases hkey
    exact Prod.ext hfits.1 hfits.2.1
  | _ => cases hkey

theorem keysOwned_step (h : KeysOwned s) (hwf : WellFormed s) (hunused : CreatesUnused b s e)
    (hstep : s.step b e = .ok t) : KeysOwned t := by
  have hkept : ∀ pl q, s.At pl q → (t.procs q).owner = (s.procs q).owner := by
    intro pl q hq
    exact owner_turn (turn_step hstep q) (hwf.fits pl q hq).1.ne
  have hwf' := wellFormed_step e hwf hstep
  intro pl q k p hkey hq hlive howner
  rcases hlive with ⟨plp, hp⟩
  rcases (comes_step hstep hq).old_or_new with ⟨plq, hatq, hkeyq⟩ | hnewq
  · have hentry := hkeyq k hkey
    rcases (comes_step hstep hp).old_or_new with ⟨plp', hatp, -⟩ | hnewp
    · rw [hkept plp' p hatp] at howner
      exact h plq q k p hentry hatq ⟨plp', hatp⟩ howner
    · cases hnewp with
      | user a name resources wait he hcreates hnew hname hpl =>
        -- the new process would have the name of `q`
        subst he
        have howns := hwf.owner_of_key hentry hatq
        rw [← howner, hname] at howns
        exact absurd howns (hunused hcreates q ⟨plq, hatq⟩)
      | controlplane a i he hnone hnew hname hpl =>
        -- or the entry of `q` would be under its name
        subst he
        have hfree := hunused hnone
        rw [← howner, hname] at hentry
        cases plq with
        | active a' name' =>
          cases hentry
          cases Eq.trans hatq.symm hfree.1
        | swapped a' name' =>
          cases hentry
          cases Eq.trans hatq.symm hfree.2
        | _ => cases hentry
  · cases hnewq with
    | user a name resources wait he hcreates hnew hname hpl =>
      rcases (comes_step hstep hp).old_or_new with ⟨plp', hatp, -⟩ | hnewp
      · -- `p` would have the name of the new process
        subst he
        have howns := hwf'.owner_of_key hkey hq
        rw [hkept plp' p hatp, ← howns, hname] at howner
        exact absurd howner (hunused hcreates p ⟨plp', hatp⟩)
      · cases hnewp with
        | user a' name' resources' wait' he' hcreates' hnew' => exact hnew'.trans hnew.symm
        | controlplane a' i he' => cases he.symm.trans he'
    | controlplane a i he hnone hnew hname hpl =>
      -- a process for an invocation gets no entry
      rcases hpl with rfl | rfl <;> cases hkey

theorem keysOwned_run {es : List Event} (h : Lts.Meets (State.step b) (CreatesUnused b) {} es)
    (hrun : Lts.run (State.step b) {} es = .ok s) : KeysOwned s := by
  have hkeep : ∀ s e t, KeysOwned s ∧ WellFormed s → CreatesUnused b s e → s.step b e = .ok t →
      KeysOwned t ∧ WellFormed t := by
    intro s e t hs hunused hstep
    exact ⟨keysOwned_step hs.1 hs.2 hunused hstep, wellFormed_step e hs.2 hstep⟩
  exact (Lts.run_invariant hkeep ⟨keysOwned_new, wellFormed_new⟩ h hrun).1

end Runs

/-- A closure leaves the others alone exactly if what it finds under its name is its own; and
this holds of every process that is referred to, in every state of a run in which no process is
created under a name that is still in use. -/
theorem closed_process_own (b : Backend) (es : List Event) (s : State)
    (hrun : Lts.run (State.step b) {} es = .ok s) :
    (∀ p, OnlyOwn s p ↔ FindsOwn s p) ∧
      (Lts.Meets (State.step b) (CreatesUnused b) {} es → ∀ p, s.Live p → OnlyOwn s p) :=
  ⟨fun _ => onlyOwn_iff, fun hmeets _ hp => (keysOwned_run hmeets hrun).onlyOwn hp⟩

/-! ### A name that is used again -/

def sampleProcess (name : Str) : Event := .addProcess 0 name ⟨some 128, some 1⟩ false

/-- A process connects, is reported by the backend, and closes. -/
def closedOnce : List Event :=
  [sampleProcess (str ['p']), .runTask, .connected, .processConnection 0 (str ['p']), .allocated 0,
    .disconnected 0]

/-- Nothing refers to it any more. -/
theorem closedOnce_gone {s : State} (hrun : Lts.run (State.step ⟨1024, 1⟩) {} closedOnce = .ok s)
    (p : ProcId) : ¬ s.Live p := by
  rcases Lts.run_test (State.step ⟨1024, 1⟩) {} closedOnce (fun s =>
    s.nextProc = 1 ∧ (s.procs 0).owner = (str ['p'], 0) ∧ s.nextConn = 1 ∧ s.conns 0 = none ∧
      (s.apps 0).activeProcesses (str ['p']) = none ∧
      (s.apps 0).swappedProcesses (str ['p']) = none ∧ (s.apps 0).controlplaneProcesses = [] ∧
      s.pendingProcesses (str ['p']) = none ∧ s.tasks = [] ∧ s.allocations 0 = none)
    (by decide +kernel) with ⟨s', hs', hnext, howner, hconns, hconn, hactive, hswapped, hcontrolplane,
      hpending, htasks, hallocation⟩
  obtain rfl := Except.ok.inj (hs'.symm.trans hrun)
  have hwf := wellFormed_run hrun
  have hnumbered := numbered_run hrun fun c hc => by simp [closedOnce, sampleProcess] at hc
  rintro ⟨pl, hat⟩
  obtain rfl : p = 0 := Nat.lt_one_iff.1 (hnext ▸ (hwf.fits pl p hat).1)
  have hfits := (hwf.fits pl 0 hat).2
  have hname : (s'.procs 0).name = str ['p'] := congrArg Prod.fst howner
  have happ : (s'.procs 0).application = 0 := congrArg Prod.snd howner
  cases pl with
  | active a name =>
    obtain ⟨rfl, rfl, -⟩ := hfits
    rw [State.At, happ, hname, hactive] at hat
    cases hat
  | swapped a name =>
    obtain ⟨rfl, rfl, -⟩ := hfits
    rw [State.At, happ, hname, hswapped] at hat
    cases hat
  | controlplane a =>
    obtain rfl : (s'.procs 0).application = a := hfits
    rw [State.At, happ, hcontrolplane] at hat
    cases hat
  | pending name =>
    obtain ⟨rfl, -⟩ := hfits
    rw [State.At, hname, hpending] at hat
    cases hat
  | task =>
    rw [State.At, htasks] at hat
    cases hat
  | connection c =>
    cases hc : s'.conns c with
    | none => simp [State.At, hc] at hat
    | some conn =>
      obtain rfl : c = 0 := Nat.lt_one_iff.1 (hconns ▸ hnumbered.fresh c conn hc)
      cases hc.symm.trans hconn
  | allocation => simp [State.At, hallocation] at hat

/-- Its name is used again, and the new process closes its own entry. -/
theorem closed_process_recreated :
    ∃ s, Lts.run (State.step ⟨1024, 1⟩) {} (closedOnce ++ [sampleProcess (str ['p'])]) = .ok s ∧
      s.At (.active 0 (str ['p'])) 1 ∧ ∀ p, s.Live p → OnlyOwn s p := by
  rcases Lts.run_test (State.step ⟨1024, 1⟩) {} (closedOnce ++ [sampleProcess (str ['p'])])
    (fun s => (s.apps 0).activeProcesses (str ['p']) = some 1) (by decide +kernel) with
    ⟨s, hrun, hactive⟩
  have hfirst : Lts.Meets (State.step ⟨1024, 1⟩) (CreatesUnused ⟨1024, 1⟩) {} closedOnce := by
    refine ⟨fun _ p hp => ?_, fun _ _ => ⟨trivial, fun _ _ => ⟨trivial, fun _ _ => ⟨trivial, fun _ _ =>
      ⟨trivial, fun _ _ => ⟨trivial, fun _ _ => trivial⟩⟩⟩⟩⟩⟩
    exact absurd (wellFormed_new.fits _ p hp.choose_spec).1 (Nat.not_lt_zero p)
  have hmeets := Lts.meets_append hfirst (l := [sampleProcess (str ['p'])]) fun t ht =>
    ⟨fun _ p hp => absurd hp (closedOnce_gone ht p), fun _ _ => trivial⟩
  exact ⟨s, hrun, hactive, (closed_process_own ⟨1024, 1⟩ _ s hrun).2 hmeets⟩

/-- A user calls a process like one that was created for an invocation: the end of the
connection of that one removes the entry of the user's process. -/
theorem closed_process_namesake :
    ¬ ∀ (b : Backend) (es : List Event) (s : State), Lts.run (State.step b) {} es = .ok s →
      ∀ p, s.Live p → OnlyOwn s p := by
  intro h
  rcases Lts.run_test (State.step ⟨1024, 1⟩) {}
    [.invoke 0 ⟨str ['a'], str ['f'], [], false⟩, .runTask, .allocated 0, .connected,
      .processConnection 0 (State.controlplaneName 0), sampleProcess (State.controlplaneName 0)]
    (fun s => (s.conns 0).bind Connection.context = some 0 ∧
      (s.apps 0).activeProcesses (State.controlplaneName 0) = some 1 ∧
      ((s.closedProcess 0).apps 0).activeProcesses (State.controlplaneName 0) = none)
    (by decide +kernel) with ⟨s, hrun, hbound, hactive, hremoved⟩
  have honly := h ⟨1024, 1⟩ _ s hrun 0 ⟨.connection 0, hbound⟩
  cases (honly.entries (.active 0 _) 1 (by decide) hactive).symm.trans hremoved

end Praas.ControlPlane
