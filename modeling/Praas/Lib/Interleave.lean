import Mathlib.Tactic

/-! # Two machines side by side

A machine is a step function with an answer for each operation. `both m₁ m₂`
serves the operations of two machines from one sequence, each by its own
machine. Then the answers to either kind of operation depend on the operations
of that kind alone: `answers_left` and `answers_right`.
-/

namespace Interleave

universe u

variable {σ σ₁ σ₂ : Type u} {α α₁ α₂ : Type u} {ω ω₁ ω₂ : Type u}

/-- A deterministic machine with answers. -/
structure Machine (σ α ω : Type u) where
  step : σ → α → σ × ω

/-- The state after a sequence of operations. -/
def Machine.after (m : Machine σ α ω) : σ → List α → σ
  | s, [] => s
  | s, e :: es => m.after (m.step s e).1 es

/-- The answers to a sequence of operations. -/
def Machine.answers (m : Machine σ α ω) : σ → List α → List ω
  | _, [] => []
  | s, e :: es => (m.step s e).2 :: m.answers (m.step s e).1 es

/-- The machine that serves the operations of both. -/
def both (m₁ : Machine σ₁ α₁ ω₁) (m₂ : Machine σ₂ α₂ ω₂) :
    Machine (σ₁ × σ₂) (α₁ ⊕ α₂) (ω₁ ⊕ ω₂) where
  step s
    | .inl e => (((m₁.step s.1 e).1, s.2), .inl (m₁.step s.1 e).2)
    | .inr e => ((s.1, (m₂.step s.2 e).1), .inr (m₂.step s.2 e).2)

/-- The operations, or answers, of the first kind. -/
def lefts : List (α₁ ⊕ α₂) → List α₁
  | [] => []
  | .inl a :: l => a :: lefts l
  | .inr _ :: l => lefts l

/-- Those of the second kind. -/
def rights : List (α₁ ⊕ α₂) → List α₂
  | [] => []
  | .inl _ :: l => rights l
  | .inr a :: l => a :: rights l

variable (m₁ : Machine σ₁ α₁ ω₁) (m₂ : Machine σ₂ α₂ ω₂)

theorem answers_left (s : σ₁ × σ₂) (es : List (α₁ ⊕ α₂)) :
    lefts ((both m₁ m₂).answers s es) = m₁.answers s.1 (lefts es) := by
  induction es generalizing s with
  | nil => rfl
  | cons e es ih =>
    have hrest := ih ((both m₁ m₂).step s e).1
    cases e with
    | inl e => exact congrArg ((m₁.step s.1 e).2 :: ·) hrest
    | inr e => exact hrest

theorem answers_right (s : σ₁ × σ₂) (es : List (α₁ ⊕ α₂)) :
    rights ((both m₁ m₂).answers s es) = m₂.answers s.2 (rights es) := by
  induction es generalizing s with
  | nil => rfl
  | cons e es ih =>
    have hrest := ih ((both m₁ m₂).step s e).1
    cases e with
    | inl e => exact hrest
    | inr e => exact congrArg ((m₂.step s.2 e).2 :: ·) hrest

/-! ## Putting the two kinds back together -/

@[simp] theorem lefts_map_inl (l : List α₁) :
    lefts (l.map (Sum.inl : α₁ → α₁ ⊕ α₂)) = l := by
  induction l with
  | nil => rfl
  | cons a l ih => simp [lefts, ih]

@[simp] theorem rights_map_inr (l : List α₂) :
    rights (l.map (Sum.inr : α₂ → α₁ ⊕ α₂)) = l := by
  induction l with
  | nil => rfl
  | cons a l ih => simp [rights, ih]

/-- Each answer is of the kind of its operation. -/
theorem answers_kinds (s : σ₁ × σ₂) (es : List (α₁ ⊕ α₂)) :
    ((both m₁ m₂).answers s es).map Sum.isLeft = es.map Sum.isLeft := by
  induction es generalizing s with
  | nil => rfl
  | cons e es ih =>
    have hrest := ih ((both m₁ m₂).step s e).1
    cases e with
    | inl e => exact congrArg (true :: ·) hrest
    | inr e => exact congrArg (false :: ·) hrest

/-- A list is determined by its elements of either kind and the order of kinds. -/
theorem ext_of_kinds {l l' : List (α₁ ⊕ α₂)} (hk : l.map Sum.isLeft = l'.map Sum.isLeft)
    (hl : lefts l = lefts l') (hr : rights l = rights l') : l = l' := by
  induction l generalizing l' with
  | nil =>
    cases l' with
    | nil => rfl
    | cons b l' => cases hk
  | cons a l ih =>
    cases l' with
    | nil => cases hk
    | cons b l' =>
      have hkinds : l.map Sum.isLeft = l'.map Sum.isLeft := (List.cons.inj hk).2
      -- the heads are of one kind, so one projection gives the head and both the tails
      cases a with
      | inl a =>
        cases b with
        | inl b =>
          obtain ⟨rfl, hl'⟩ := List.cons.inj hl
          exact congrArg (Sum.inl a :: ·) (ih hkinds hl' hr)
        | inr b => cases (List.cons.inj hk).1
      | inr a =>
        cases b with
        | inl b => cases (List.cons.inj hk).1
        | inr b =>
          obtain ⟨rfl, hr'⟩ := List.cons.inj hr
          exact congrArg (Sum.inr a :: ·) (ih hkinds hl hr')

end Interleave
