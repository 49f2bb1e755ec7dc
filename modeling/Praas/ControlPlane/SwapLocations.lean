import Praas.ControlPlane.Origins

/-! # The swap location of a swapped process

A process enters the table of swapped processes while it is swapping out, and it starts
to swap out with a location. `located_run`: in every reachable state every process in
the table has its location, which `delete_process` reads.
-/

namespace Praas.ControlPlane

section Swapped

variable {s t : State} {b : Backend} {e : Event} {p : ProcId}

/-- A process enters the table of swapped processes while it is swapping out. -/
theorem swapped_step (hstep : s.step b e = .ok t) {a : AppId} {name : Str}
    (h : t.At (.swapped a name) p) :
    s.At (.swapped a name) p ∨
      (∃ pl, s.At pl p) ∧ (s.procs p).status = .SWAPPING_OUT := by
  cases comes_step hstep h with
  | stays pl hat => exact .inl hat
  | swapped a name hat hstatus => exact .inr ⟨⟨_, hat⟩, hstatus⟩
  | created pl hnew =>
    -- a new process is not in this table
    cases hnew with
    | user a' name' resources wait he hcreates hnew howner hpl =>
      rcases hpl with hpl | hpl | hpl <;> cases hpl
    | controlplane a' i he hnone hnew howner hpl => rcases hpl with hpl | hpl <;> cases hpl

/-- A process that is swapping out, or swapped, has a swap location. -/
structure Located (s : State) : Prop where
  swapping : ∀ p, (s.procs p).status = .SWAPPING_OUT → (s.procs p).swapPath.isSome
  swapped : ∀ a name p, s.At (.swapped a name) p → (s.procs p).swapPath.isSome

theorem swapPath_swap (proc : Process) : proc.swap.1.swapPath = proc.swapPath := by
  rcases proc.swap_changes with ⟨sent, h⟩
  rw [h]

theorem swapPath_addInvocation (proc : Process) (i : Invocation) :
    (proc.addInvocation i).1.swapPath = proc.swapPath := by
  rcases proc.addInvocation_changes i with ⟨l, sent, h⟩
  rw [h]

theorem swapPath_finishInvocation (proc : Process) (id : Str) (returnCode : Int)
    (result : List Byte) :
    (proc.finishInvocation id returnCode result).swapPath = proc.swapPath := by
  rcases proc.finishInvocation_changes id returnCode result with ⟨l, n, responses, -, h⟩
  rw [h]

theorem swapPath_instanceConnected (proc : Process) (error : Option Str) :
    (proc.instanceConnected error).1.swapPath = proc.swapPath := by
  rcases proc.instanceConnected_changes error with ⟨l, n, sent, callback, created, h⟩
  rw [h]

theorem swapPath_createdCallback (proc : Process) (error : Option Str) :
    (proc.createdCallback error).swapPath = proc.swapPath := by
  rcases proc.createdCallback_changes error with ⟨callback, n, created, h⟩
  rw [h]

/-- A process connects only while it is being allocated. -/
theorem status_of_connect {proc : Process} {c : ConnId} (h : (proc.connect c).2 = none) :
    proc.status = .ALLOCATING := by
  unfold Process.connect at h
  by_contra hstatus
  rw [if_pos hstatus] at h
  cases h

/-- A process keeps its swap location, and gets one when it starts to swap out. -/
theorem swapPath_turn {x : Process} {o : Option Origin} (h : Turn s p e x o) :
    (p ≠ s.nextProc → (s.procs p).swapPath.isSome → x.swapPath.isSome) ∧
      (x.status = .SWAPPING_OUT →
        (s.procs p).status = .SWAPPING_OUT ∧ x.swapPath = (s.procs p).swapPath ∨
          x.swapPath.isSome) := by
  have hsame : x.swapPath = (s.procs p).swapPath → x.status = (s.procs p).status →
      (p ≠ s.nextProc → (s.procs p).swapPath.isSome → x.swapPath.isSome) ∧
        (x.status = .SWAPPING_OUT →
          (s.procs p).status = .SWAPPING_OUT ∧ x.swapPath = (s.procs p).swapPath ∨
            x.swapPath.isSome) := by
    intro hpath hstatus
    rw [hpath, hstatus]
    exact ⟨fun _ => id, fun hswapping => .inl ⟨hswapping, rfl⟩⟩
  cases h with
  | same hx ho => exact hsame (by rw [hx]) (by rw [hx])
  | created a name resources wait he hnew hx ho =>
    rw [hx]
    exact ⟨fun hp => absurd hnew hp, fun h => by cases h⟩
  | createdFor a i he hnone hnew hx ho =>
    rw [hx]
    exact ⟨fun hp => absurd hnew hp, fun h => by cases h⟩
  | added a i he havailable hx ho =>
    have hstatus := Process.status_of_place (Process.place_addInvocation (s.procs p) i)
    apply hsame _ (hx ▸ hstatus)
    rw [hx, swapPath_addInvocation]
  | allocated origin he horigin hx ho =>
    have hstatus := Process.status_of_place
      (Process.place_createdCallback (s.procs p).setHandle none)
    apply hsame _ (hx ▸ hstatus)
    rw [hx, swapPath_createdCallback]
    rfl
  | failed origin error he horigin hx ho =>
    have hstatus := Process.status_of_place
      (Process.place_createdCallback (s.procs p) (some error))
    apply hsame _ (hx ▸ hstatus)
    rw [hx, swapPath_createdCallback]
  | attached error he hconnecting hx ho =>
    have hstatus := Process.status_of_place (Process.place_instanceConnected
      { s.procs p with connecting := (s.procs p).connecting - 1 } error)
    apply hsame _ (hx ▸ hstatus)
    rw [hx, swapPath_instanceConnected]
  | connected c name he hpending hreturns hx ho =>
    have hstatus := status_of_connect hreturns
    have hplace := congrArg (fun k => k.2.2) (Process.place_connect hstatus c)
    have hpath : x.swapPath = (s.procs p).swapPath := by
      rw [hx]
      unfold Process.connect
      rw [if_neg (by simp [hstatus])]
      dsimp only
      split
      · rfl
      · rw [swapPath_createdCallback]
    rw [hpath]
    refine ⟨fun _ => id, fun hswapping => ?_⟩
    rw [hx] at hswapping
    cases hplace.symm.trans hswapping
  | finished c conn id returnCode result he hconn hcontext hx ho =>
    have hstatus := Process.status_of_place
      (Process.place_finishInvocation (s.procs p) id returnCode result)
    apply hsame _ (hx ▸ hstatus)
    rw [hx, swapPath_finishInvocation]
  | swapping a name path he hstatus hx ho =>
    rw [hx, swapPath_swap]
    exact ⟨fun _ _ => rfl, fun _ => .inr rfl⟩
  | swapped hstatus hx ho =>
    rw [hx]
    exact ⟨fun _ => id, fun h => by cases h⟩
  | closed c conn he hconn hcontext hx ho =>
    rcases hx with hx | hx
    · rw [hx]
      exact ⟨fun _ => id, fun h => by cases h⟩
    · rw [hx]
      exact ⟨fun _ => id, fun h => by cases h⟩

theorem located_step (h : Located s) (hwf : WellFormed s) (hstep : s.step b e = .ok t) :
    Located t := by
  have hkept : ∀ p, (∃ pl, s.At pl p) → (s.procs p).swapPath.isSome →
      (t.procs p).swapPath.isSome := by
    rintro p ⟨pl, hat⟩
    exact (swapPath_turn (turn_step hstep p)).1 (hwf.fits pl p hat).1.ne
  constructor
  case swapping =>
    intro p hstatus
    rcases (swapPath_turn (turn_step hstep p)).2 hstatus with ⟨hold, hpath⟩ | hnew
    · rw [hpath]
      exact h.swapping p hold
    · exact hnew
  case swapped =>
    intro a name p hp
    rcases swapped_step hstep hp with hold | ⟨hat, hstatus⟩
    · exact hkept p ⟨_, hold⟩ (h.swapped a name p hold)
    · exact hkept p hat (h.swapping p hstatus)

theorem located_run {es : List Event} (h : Lts.run (State.step b) {} es = .ok s) : Located s := by
  have hkeeps : ∀ s e s', (WellFormed s ∧ Located s) → s.step b e = .ok s' →
      WellFormed s' ∧ Located s' := by
    intro s e s' hs hstep
    exact ⟨wellFormed_step e hs.1 hstep, located_step hs.2 hs.1 hstep⟩
  have hnew : WellFormed {} ∧ Located {} := by
    refine ⟨wellFormed_new, ?_, ?_⟩
    · intro p hp
      cases hp
    · intro a name p hp
      cases hp
  exact (Lts.run_always hkeeps hnew h).2

end Swapped

end Praas.ControlPlane
