import Mathlib.Data.List.GetD
import Praas.Lib.Fairness

/-! # The next occurrence of an event, and executions that settle

* `Execution.holds_when`: what lasts until an event occurs holds when it next occurs;
* `Execution.leadsTo_of_phases`: every step keeps the phase or brings about one of a lower
  rank, and the steps that do the latter recur;
* `Execution.lasso`: a finite run that ends in a state which some event does not change is
  the beginning of an execution, the run and then that event for ever;
* `Execution.scheduled`: where every step returns, a scheduler that sees the state and the time
  has an execution of its own.
-/

namespace Lts

variable {σ α ε : Type*} {step : σ → α → Except ε σ}

namespace Execution

variable {x : Execution step}

/-- The event occurs from `n` on, and until then nothing else ends `I`. -/
theorem holds_when (I : σ → Prop) (acts : σ → α → Prop) {n : ℕ} (hn : I (x.state n))
    (hstep : ∀ k, n ≤ k → I (x.state k) → ¬ acts (x.state k) (x.event k) → I (x.state (k + 1)))
    (hacts : ∃ m, n ≤ m ∧ acts (x.state m) (x.event m)) :
    ∃ m, n ≤ m ∧ I (x.state m) ∧ acts (x.state m) (x.event m) := by
  rcases hacts with ⟨m, hm, hm'⟩
  by_contra hnot
  have hlasts : ∀ k, n ≤ k → I (x.state k) := by
    intro k hk
    induction k, hk using Nat.le_induction with
    | base => exact hn
    | succ k hk ih => exact hstep k hk ih fun h => hnot ⟨k, hk, ih, h⟩
  exact hnot ⟨m, hm, hlasts m hm, hm'⟩

/-- The phases of a system, in a state of which `Q` holds or a step that ends it recurs. -/
theorem leadsTo_of_phases {ι β : Type*} [Preorder β] [WellFoundedLT β] {Q : σ → Prop}
    (Holds : ι → σ → Prop) (rank : ι → β) (ends : ι → σ → α → Prop)
    (hstep : ∀ w n, Holds w (x.state n) →
      (Holds w (x.state (n + 1)) ∧ ¬ ends w (x.state n) (x.event n)) ∨
        ∃ w', Holds w' (x.state (n + 1)) ∧ rank w' < rank w)
    (hfair : ∀ w n, Holds w (x.state n) →
      Q (x.state n) ∨ ∃ m, n ≤ m ∧ ends w (x.state m) (x.event m)) :
    x.LeadsTo (fun s => ∃ w, Holds w s) Q := by
  have hall : ∀ r : β, ∀ w n, rank w = r → Holds w (x.state n) →
      ∃ m, n ≤ m ∧ Q (x.state m) := by
    intro r
    induction r using WellFoundedLT.induction with
    | ind r ih =>
      rintro w n rfl hw
      rcases hfair w n hw with hQ | ⟨m, hm, hends⟩
      · exact ⟨n, le_rfl, hQ⟩
      -- the phase is over after the step at `m`, if not before
      have hlower : ∃ k, n ≤ k ∧ ∃ w', Holds w' (x.state k) ∧ rank w' < rank w := by
        rcases persists (Q := fun s => ∃ w', Holds w' s ∧ rank w' < rank w)
          (I := fun k => Holds w (x.state k)) hw
          (fun k _ hk => (hstep w k hk).symm.imp_right And.left) hm with ⟨k, hk, -, hlow⟩ | hlasts
        · exact ⟨k, hk, hlow⟩
        · rcases hstep w m hlasts with ⟨-, hnot⟩ | hlow
          · exact absurd hends hnot
          · exact ⟨m + 1, hm.trans m.le_succ, hlow⟩
      rcases hlower with ⟨k, hk, w', hw', hlt⟩
      rcases ih _ hlt w' k rfl hw' with ⟨j, hj, hQ⟩
      exact ⟨j, hk.trans hj, hQ⟩
  rintro n ⟨w, hw⟩
  exact hall _ w n rfl hw

end Execution

/-! ## Executions that settle -/

section Lasso

variable {s t : σ} {es : List α} {e : α}

/-- The state after the first `n` events of a run that returns `t`. -/
def stateAfter (step : σ → α → Except ε σ) (s : σ) (es : List α) (t : σ) (n : ℕ) : σ :=
  (run step s (es.take n)).toOption.getD t

theorem run_take (hrun : run step s es = .ok t) (n : ℕ) :
    run step s (es.take n) = .ok (stateAfter step s es t n) := by
  rw [← List.take_append_drop n es] at hrun
  rcases run_append_ok.1 hrun with ⟨s', hs', -⟩
  unfold stateAfter
  rw [hs']
  rfl

theorem stateAfter_of_le (hrun : run step s es = .ok t) {n : ℕ} (hn : es.length ≤ n) :
    stateAfter step s es t n = t := by
  have htake := run_take hrun n
  rw [List.take_of_length_le hn, hrun] at htake
  exact (Except.ok.inj htake).symm

/-- The run, and then the event that changes nothing. -/
def Execution.lasso (hrun : run step s es = .ok t) (hloop : step t e = .ok t) : Execution step where
  state := stateAfter step s es t
  event n := es.getD n e
  next := by
    intro n
    rcases Nat.lt_or_ge n es.length with hlt | hge
    · have hnow := run_take hrun n
      have hnext := run_take hrun (n + 1)
      rw [List.take_succ_eq_append_getElem hlt] at hnext
      rcases run_append_ok.1 hnext with ⟨s', hs', hlast⟩
      obtain rfl := Except.ok.inj (hnow.symm.trans hs')
      rcases run_cons_ok.1 hlast with ⟨s'', hs'', hnil⟩
      obtain rfl := Except.ok.inj hnil
      rw [List.getD_eq_getElem _ _ hlt]
      exact hs''
    · rw [stateAfter_of_le hrun hge, stateAfter_of_le hrun (hge.trans n.le_succ),
        List.getD_eq_default _ _ hge]
      exact hloop

end Lasso

/-! ## Executions of a scheduler -/

section Scheduled

variable {Inv : σ → Prop}

/-- The events are those that the scheduler chooses. -/
def followed (step : σ → α → Except ε σ) (choose : ℕ → σ → α) (s : σ) : ℕ → σ
  | 0 => s
  | n + 1 =>
    let t := followed step choose s n
    (step t (choose n t)).toOption.getD t

theorem followed_invariant (hstep : ∀ s e, Inv s → ∃ s', step s e = .ok s' ∧ Inv s')
    (choose : ℕ → σ → α) {s : σ} (h : Inv s) (n : ℕ) : Inv (followed step choose s n) := by
  induction n with
  | zero => exact h
  | succ n ih =>
    rcases hstep _ (choose n (followed step choose s n)) ih with ⟨s', hs', h'⟩
    simp only [followed, hs']
    exact h'

def Execution.scheduled (hstep : ∀ s e, Inv s → ∃ s', step s e = .ok s' ∧ Inv s')
    (choose : ℕ → σ → α) {s : σ} (h : Inv s) : Execution step where
  state := followed step choose s
  event n := choose n (followed step choose s n)
  next := by
    intro n
    have hn := followed_invariant hstep choose h n
    rcases hstep _ (choose n (followed step choose s n)) hn with ⟨s', hs', -⟩
    simp only [followed, hs']
    rfl

end Scheduled

end Lts
