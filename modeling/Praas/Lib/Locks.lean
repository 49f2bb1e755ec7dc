import Mathlib.Tactic
import Mathlib.Logic.Relation

/-! # Reader/writer locks and cycles of waiting operations

Operations hold locks, each in a mode, and one that wants a lock waits for the operations
that hold it in a mode that excludes its own. A cycle of waiting operations never ends.

* `not_cycle_of_rank`: the lock-order argument; if waiting goes up in some rank as long as
  the one waited for waits itself, there is no cycle.
* `exclusive_acquire`: locks that are granted only when they are free are held exclusively.
-/

namespace Locks

inductive Mode where
  | shared
  | exclusive
deriving DecidableEq, Repr

/-- Two modes that cannot be held together. -/
def Mode.Conflicts : Mode → Mode → Prop
  | .shared, .shared => False
  | _, _ => True

instance : ∀ a c : Mode, Decidable (a.Conflicts c)
  | .shared, .shared => isFalse id
  | .shared, .exclusive => isTrue trivial
  | .exclusive, _ => isTrue trivial

@[simp] theorem conflicts_exclusive (a : Mode) : a.Conflicts .exclusive := by
  cases a <;> trivial

@[simp] theorem exclusive_conflicts (c : Mode) : Mode.exclusive.Conflicts c := by
  cases c <;> trivial

variable {ι μ : Type*} (wants : ι → Option (μ × Mode)) (held : ι → List (μ × Mode))

/-- `i` wants a lock that `j` holds. -/
def Waits (i j : ι) : Prop :=
  ∃ m a c, wants i = some (m, a) ∧ (m, c) ∈ held j ∧ a.Conflicts c

/-- Operations each of which waits for the next one. -/
def Cycle : Prop := ∃ i, Relation.TransGen (Waits wants held) i i

/-- What is wanted by `i` is not held by another operation. -/
def Free (i : ι) (m : μ) (a : Mode) : Prop :=
  ∀ j, j ≠ i → ∀ c, (m, c) ∈ held j → ¬ a.Conflicts c

/-- No two operations hold a lock in modes that exclude each other. -/
def Exclusive : Prop :=
  ∀ i j, i ≠ j → ∀ m a c, (m, a) ∈ held i → (m, c) ∈ held j → ¬ a.Conflicts c

variable {wants held}

theorem cycle_of_pair {i j : ι} (hi : Waits wants held i j) (hj : Waits wants held j i) :
    Cycle wants held :=
  ⟨i, Relation.TransGen.tail (Relation.TransGen.single hi) hj⟩

/-- Whoever is in a cycle waits for one who is in it, too. -/
theorem cycle_next {r : ι → ι → Prop} {i : ι} (h : Relation.TransGen r i i) :
    ∃ j, r i j ∧ Relation.TransGen r j j := by
  rcases Relation.TransGen.head'_iff.1 h with ⟨j, hij, hji⟩
  exact ⟨j, hij, Relation.TransGen.tail' hji hij⟩

/-- **Lock order.** -/
theorem not_cycle_of_rank (rank : ι → ℕ)
    (hrank : ∀ i j, Waits wants held i j → (∃ k, Waits wants held j k) → rank i < rank j) :
    ¬ Cycle wants held := by
  rintro ⟨i, hcycle⟩
  -- a chain of waiting operations goes up, as long as its end waits
  have hup : ∀ j, Relation.TransGen (Waits wants held) i j → (∃ k, Waits wants held j k) →
      rank i < rank j := by
    intro j hchain
    induction hchain with
    | single hwait => exact hrank _ _ hwait
    | tail hchain hwait ih =>
      intro hnext
      exact lt_trans (ih ⟨_, hwait⟩) (hrank _ _ hwait hnext)
  rcases cycle_next hcycle with ⟨j, hwait, -⟩
  exact lt_irrefl _ (hup i hcycle ⟨j, hwait⟩)

/-- An operation that takes at most one lock more, which was free, keeps it exclusive. -/
theorem exclusive_acquire [DecidableEq ι] {i : ι} {locks : List (μ × Mode)}
    (h : Exclusive held)
    (hnew : ∀ m a, (m, a) ∈ locks → (m, a) ∈ held i ∨ Free held i m a) :
    Exclusive (Function.update held i locks) := by
  have hsymm : ∀ a c : Mode, a.Conflicts c → c.Conflicts a := by
    intro a c hconflict
    cases a <;> cases c <;> exact hconflict
  intro j k hjk m a c hj hk hconflict
  rcases eq_or_ne j i with rfl | hji
  · rw [Function.update_self] at hj
    rw [Function.update_of_ne hjk.symm] at hk
    rcases hnew m a hj with hold | hfree
    · exact h j k hjk m a c hold hk hconflict
    · exact hfree k hjk.symm c hk hconflict
  · rw [Function.update_of_ne hji] at hj
    rcases eq_or_ne k i with rfl | hki
    · rw [Function.update_self] at hk
      rcases hnew m c hk with hold | hfree
      · exact h j k hjk m a c hj hold hconflict
      · exact hfree j hjk a hj (hsymm a c hconflict)
    · rw [Function.update_of_ne hki] at hk
      exact h j k hjk m a c hj hk hconflict

end Locks
