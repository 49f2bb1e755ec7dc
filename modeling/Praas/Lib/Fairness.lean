import Mathlib.Order.WellFounded
import Praas.Lib.Lts

/-! # Infinite runs and what happens in them eventually

An execution takes a step at every instant. Which events recur in it is a matter of
fairness, and stays an assumption of each result.

* `Execution.persists`: what lasts until something happens does so up to each instant;
* `Execution.leadsTo_of_rank`: no step increases the rank, some recurring steps decrease
  it, and in the end there is nothing left to decrease.
-/

namespace Lts

variable {σ α ε : Type*}

structure Execution (step : σ → α → Except ε σ) where
  state : ℕ → σ
  event : ℕ → α
  next : ∀ n, step (state n) (event n) = .ok (state (n + 1))

namespace Execution

variable {step : σ → α → Except ε σ} (x : Execution step) {P Q R : σ → Prop}

theorem always {Inv : σ → Prop} (hstep : ∀ s e s', Inv s → step s e = .ok s' → Inv s')
    (h : Inv (x.state 0)) (n : ℕ) : Inv (x.state n) := by
  induction n with
  | zero => exact h
  | succ n ih => exact hstep _ _ _ ih (x.next n)

/-- Whenever `P` holds, `Q` holds then or later. -/
def LeadsTo (P Q : σ → Prop) : Prop := ∀ n, P (x.state n) → ∃ m, n ≤ m ∧ Q (x.state m)

variable {x}

theorem LeadsTo.trans (h : x.LeadsTo P Q) (h' : x.LeadsTo Q R) : x.LeadsTo P R := by
  intro n hP
  rcases h n hP with ⟨m, hm, hQ⟩
  rcases h' m hQ with ⟨k, hk, hR⟩
  exact ⟨k, hm.trans hk, hR⟩

/-- What persists until `Q` holds does so at each later instant, unless `Q` held. -/
theorem persists {I : ℕ → Prop} {n : ℕ} (hn : I n)
    (hstep : ∀ k, n ≤ k → I k → Q (x.state (k + 1)) ∨ I (k + 1)) {m : ℕ} (hm : n ≤ m) :
    (∃ k, n ≤ k ∧ k ≤ m ∧ Q (x.state k)) ∨ I m := by
  induction m, hm using Nat.le_induction with
  | base => exact .inr hn
  | succ m hm ih =>
    rcases ih with ⟨k, hnk, hkm, hQ⟩ | hI
    · exact .inl ⟨k, hnk, hkm.trans m.le_succ, hQ⟩
    · rcases hstep m hm hI with hQ | hI'
      · exact .inl ⟨m + 1, hm.trans m.le_succ, le_rfl, hQ⟩
      · exact .inr hI'

/-- As long as `P` holds no step increases the rank, and steps that decrease it recur. -/
theorem leadsTo_of_rank {β : Type*} [Preorder β] [WellFoundedLT β] (rank : σ → β)
    (acts : σ → α → Prop)
    (hstep : ∀ n, P (x.state n) → Q (x.state (n + 1)) ∨
      P (x.state (n + 1)) ∧ rank (x.state (n + 1)) ≤ rank (x.state n) ∧
        (acts (x.state n) (x.event n) → rank (x.state (n + 1)) < rank (x.state n)))
    (hfair : ∀ n, P (x.state n) → ∃ m, n ≤ m ∧ acts (x.state m) (x.event m)) :
    x.LeadsTo P Q := by
  have hall : ∀ r : β, ∀ n, P (x.state n) → rank (x.state n) = r →
      ∃ m, n ≤ m ∧ Q (x.state m) := by
    intro r
    induction r using WellFoundedLT.induction with
    | ind r ih =>
      intro n hP hr
      rcases hfair n hP with ⟨m, hm, hacts⟩
      -- until the step at `m`, `P` persists and the rank does not increase
      have hwait := persists (x := x) (Q := Q) (I := fun k => P (x.state k) ∧
        rank (x.state k) ≤ r) ⟨hP, hr.le⟩ (fun k _ hk => by
          rcases hstep k hk.1 with hQ | ⟨hP', hle, -⟩
          · exact .inl hQ
          · exact .inr ⟨hP', hle.trans hk.2⟩) hm
      rcases hwait with ⟨k, hnk, -, hQ⟩ | ⟨hPm, hrm⟩
      · exact ⟨k, hnk, hQ⟩
      · rcases hstep m hPm with hQ | ⟨hP', -, hlt⟩
        · exact ⟨m + 1, hm.trans m.le_succ, hQ⟩
        · rcases ih _ ((hlt hacts).trans_le hrm) (m + 1) hP' rfl with ⟨k, hk, hQ⟩
          exact ⟨k, (hm.trans m.le_succ).trans hk, hQ⟩
  exact fun n hP => hall _ n hP rfl

/-- `P` persists, and the step that ends it recurs. -/
theorem leadsTo_of_recurs (acts : σ → α → Prop)
    (hstep : ∀ n, P (x.state n) → Q (x.state (n + 1)) ∨
      P (x.state (n + 1)) ∧ ¬ acts (x.state n) (x.event n))
    (hfair : ∀ n, P (x.state n) → ∃ m, n ≤ m ∧ acts (x.state m) (x.event m)) :
    x.LeadsTo P Q := by
  refine leadsTo_of_rank (fun _ => (0 : ℕ)) acts (fun n hP => ?_) hfair
  exact (hstep n hP).imp_right fun h => ⟨h.1, le_rfl, fun hacts => absurd hacts h.2⟩

end Execution

end Lts
