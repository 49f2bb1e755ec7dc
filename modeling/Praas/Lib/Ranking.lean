import Praas.Lib.Lts

/-! # What a run changes only so often

An observation of the states of a system that moves along a relation, and up a rank
whenever it moves, changes at most as often as the rank allows, however long the run is.
-/

namespace Lts

variable {σ α ε β : Type*} {step : σ → α → Except ε σ} {f : σ → β}

/-- The number of steps of a run at which `f` changes. -/
def changes [DecidableEq β] (step : σ → α → Except ε σ) (f : σ → β) : σ → List α → ℕ
  | _, [] => 0
  | s, e :: es =>
    match step s e with
    | .ok s' => (if f s' = f s then 0 else 1) + changes step f s' es
    | .error _ => 0

/-- Where every step keeps `f` or moves it along `R`, a run moves it along a chain of `R`. -/
theorem run_moves {Inv : σ → Prop} {R : β → β → Prop}
    (hinv : ∀ s e s', Inv s → step s e = .ok s' → Inv s')
    (hmove : ∀ s e s', Inv s → step s e = .ok s' → f s' = f s ∨ R (f s) (f s'))
    {s t : σ} {es : List α} (hs : Inv s) (hrun : run step s es = .ok t) :
    Relation.ReflTransGen R (f s) (f t) := by
  induction es generalizing s with
  | nil =>
    obtain rfl := Except.ok.inj hrun
    exact .refl
  | cons e es ih =>
    rcases run_cons_ok.1 hrun with ⟨s', hs', hrest⟩
    have hlater := ih (hinv s e s' hs hs') hrest
    rcases hmove s e s' hs hs' with hsame | hR
    · rwa [hsame] at hlater
    · exact .head hR hlater

/-- Where the moves go up a rank, the rank at the end counts the changes. -/
theorem changes_add_rank_le [DecidableEq β] {Inv : σ → Prop} {R : β → β → Prop} {rank : β → ℕ}
    (hinv : ∀ s e s', Inv s → step s e = .ok s' → Inv s')
    (hmove : ∀ s e s', Inv s → step s e = .ok s' → f s' = f s ∨ R (f s) (f s'))
    (hrank : ∀ x y, R x y → rank x < rank y)
    {s t : σ} {es : List α} (hs : Inv s) (hrun : run step s es = .ok t) :
    changes step f s es + rank (f s) ≤ rank (f t) := by
  induction es generalizing s with
  | nil =>
    obtain rfl := Except.ok.inj hrun
    simp [changes]
  | cons e es ih =>
    rcases run_cons_ok.1 hrun with ⟨s', hs', hrest⟩
    have hlater := ih (hinv s e s' hs hs') hrest
    simp only [changes, hs']
    split_ifs with hsame
    · rw [hsame] at hlater
      omega
    · have hR := (hmove s e s' hs hs').resolve_left hsame
      have hup := hrank _ _ hR
      omega

end Lts
