import Mathlib.Tactic

/-! # Runs of a step function that may raise

A system is a step function `σ → α → Except ε σ`: from a state and an event
either the next state, or the fault that stops the run. `run` executes a list
of events, `Meets` says that every step of a run satisfies a condition on the
state before it and the event, and the rules below lift what one step preserves
to what a whole run preserves.
-/

namespace Lts

variable {σ α ε : Type*}

/-- A computation that returns has passed through a value of its first part. -/
theorem bind_ok {ε α β : Type} {x : Except ε α} {f : α → Except ε β} {b : β}
    (h : x >>= f = .ok b) : ∃ a, x = .ok a ∧ f a = .ok b := by
  cases x with
  | ok a => exact ⟨a, rfl, h⟩
  | error e => cases h

/-- The computation does not raise. -/
def Returns {ε α : Type} (x : Except ε α) : Prop := ∃ a, x = .ok a

instance {ε α : Type} : (x : Except ε α) → Decidable (Returns x)
  | .ok a => isTrue ⟨a, rfl⟩
  | .error _ => isFalse (by rintro ⟨_, ⟨⟩⟩)

/-- Execute a list of events; the first fault ends the run. -/
def run (step : σ → α → Except ε σ) : σ → List α → Except ε σ
  | s, [] => .ok s
  | s, e :: es =>
    match step s e with
    | .ok s' => run step s' es
    | .error x => .error x

/-- Every step of the run from `s` meets `C`, read in the state before it. -/
def Meets (step : σ → α → Except ε σ) (C : σ → α → Prop) : σ → List α → Prop
  | _, [] => True
  | s, e :: es => C s e ∧ ∀ s', step s e = .ok s' → Meets step C s' es

variable {step : σ → α → Except ε σ} {C : σ → α → Prop}

@[simp] theorem run_nil (s : σ) : run step s [] = .ok s := rfl

theorem run_cons_ok {s t : σ} {e : α} {es : List α} :
    run step s (e :: es) = .ok t ↔ ∃ s', step s e = .ok s' ∧ run step s' es = .ok t := by
  simp only [run]
  cases step s e with
  | ok s' => simp
  | error x => simp

theorem run_append_ok {s t : σ} {es fs : List α} :
    run step s (es ++ fs) = .ok t ↔ ∃ s', run step s es = .ok s' ∧ run step s' fs = .ok t := by
  induction es generalizing s with
  | nil => simp
  | cons e es ih =>
    rw [List.cons_append, run_cons_ok]
    constructor
    · rintro ⟨s₁, hs₁, hrest⟩
      rcases ih.1 hrest with ⟨s₂, hs₂, hlast⟩
      exact ⟨s₂, run_cons_ok.2 ⟨s₁, hs₁, hs₂⟩, hlast⟩
    · rintro ⟨s₂, hs₂, hlast⟩
      rcases run_cons_ok.1 hs₂ with ⟨s₁, hs₁, hrest⟩
      exact ⟨s₁, hs₁, ih.2 ⟨s₂, hrest, hlast⟩⟩

@[simp] theorem meets_nil (s : σ) : Meets step C s [] := trivial

theorem meets_of_append {s : σ} {es fs : List α} (h : Meets step C s (es ++ fs)) :
    Meets step C s es := by
  induction es generalizing s with
  | nil => trivial
  | cons e es ih => exact ⟨h.1, fun s' hs => ih (h.2 s' hs)⟩

theorem meets_append {s : σ} {es l : List α} (h : Meets step C s es)
    (h' : ∀ t, run step s es = .ok t → Meets step C t l) : Meets step C s (es ++ l) := by
  induction es generalizing s with
  | nil => exact h' s rfl
  | cons e es ih =>
    refine ⟨h.1, fun s' hs => ih (h.2 s' hs) fun t ht => ?_⟩
    exact h' t (run_cons_ok.2 ⟨s', hs, ht⟩)

theorem meets_of_forall {es : List α} (h : ∀ e ∈ es, ∀ s, C s e) (s : σ) :
    Meets step C s es := by
  induction es generalizing s with
  | nil => trivial
  | cons e es ih =>
    refine ⟨h e List.mem_cons_self s, fun s' _ => ?_⟩
    exact ih (fun e' he' => h e' (List.mem_cons_of_mem _ he')) s'

theorem Meets.and {D : σ → α → Prop} {s : σ} {es : List α} (h : Meets step C s es)
    (h' : Meets step D s es) : Meets step (fun s e => C s e ∧ D s e) s es := by
  induction es generalizing s with
  | nil => trivial
  | cons e es ih => exact ⟨⟨h.1, h'.1⟩, fun s' hs => ih (h.2 s' hs) (h'.2 s' hs)⟩

/-! ## Concrete runs -/

/-- `Meets`, executed. -/
def check (step : σ → α → Except ε σ) (C : σ → α → Prop) [∀ s e, Decidable (C s e)] :
    σ → List α → Bool
  | _, [] => true
  | s, e :: es =>
    decide (C s e) &&
      match step s e with
      | .ok s' => check step C s' es
      | .error _ => true

theorem check_iff [∀ s e, Decidable (C s e)] {s : σ} {es : List α} :
    check step C s es = true ↔ Meets step C s es := by
  induction es generalizing s with
  | nil => simp [check]
  | cons e es ih =>
    cases hs : step s e with
    | ok s' => simp [check, Meets, hs, ih]
    | error x => simp [check, Meets, hs]

instance [∀ s e, Decidable (C s e)] (s : σ) (es : List α) : Decidable (Meets step C s es) :=
  decidable_of_iff _ check_iff

/-- A run that ends in a state with a property that can be tested. -/
theorem run_test (step : σ → α → Except ε σ) (s : σ) (es : List α) (P : σ → Prop)
    [DecidablePred P]
    (h : (run step s es).toOption.any (fun t => decide (P t)) = true) :
    ∃ t, run step s es = .ok t ∧ P t := by
  cases hrun : run step s es with
  | ok t => exact ⟨t, rfl, by simpa [hrun, Except.toOption] using h⟩
  | error x => simp [hrun, Except.toOption] at h

/-! ## Lifting what one step preserves -/

/-- What every step that meets `C` preserves, a run of such steps preserves. -/
theorem run_invariant {Inv : σ → Prop}
    (hstep : ∀ s e s', Inv s → C s e → step s e = .ok s' → Inv s')
    {s t : σ} {es : List α} (hs : Inv s) (hC : Meets step C s es)
    (hrun : run step s es = .ok t) : Inv t := by
  induction es generalizing s with
  | nil =>
    obtain rfl : s = t := by simpa using hrun
    exact hs
  | cons e es ih =>
    obtain ⟨s', hs', hr⟩ := run_cons_ok.1 hrun
    exact ih (hstep s e s' hs hC.1 hs') (hC.2 s' hs') hr

/-- What every step preserves, a run preserves. -/
theorem run_always {Inv : σ → Prop} (hstep : ∀ s e s', Inv s → step s e = .ok s' → Inv s')
    {s t : σ} {es : List α} (hs : Inv s) (hrun : run step s es = .ok t) : Inv t :=
  run_invariant (fun s e s' h (_ : True) => hstep s e s' h) hs
    (meets_of_forall (fun _ _ _ => trivial) s) hrun

/-- What each step preserves between two systems, runs of the same events preserve. -/
theorem run_related {τ : Type*} {step' : τ → α → Except ε τ} {R : σ → τ → Prop}
    (hstep : ∀ s t e s' t', R s t → step s e = .ok s' → step' t e = .ok t' → R s' t')
    {s s' : σ} {t t' : τ} {es : List α} (h : R s t) (hs : run step s es = .ok s')
    (ht : run step' t es = .ok t') : R s' t' := by
  induction es generalizing s t with
  | nil =>
    obtain rfl := Except.ok.inj hs
    obtain rfl := Except.ok.inj ht
    exact h
  | cons e es ih =>
    rcases run_cons_ok.1 hs with ⟨s₁, hs₁, hs⟩
    rcases run_cons_ok.1 ht with ⟨t₁, ht₁, ht⟩
    exact ih (hstep s t e s₁ t₁ h hs₁ ht₁) hs ht

/-- If every step that meets `C` returns and keeps the invariant, so does a run. -/
theorem run_keeps {Inv : σ → Prop}
    (hstep : ∀ s e, Inv s → C s e → ∃ s', step s e = .ok s' ∧ Inv s')
    {s : σ} {es : List α} (hs : Inv s) (hC : Meets step C s es) :
    ∃ t, run step s es = .ok t ∧ Inv t := by
  induction es generalizing s with
  | nil => exact ⟨s, rfl, hs⟩
  | cons e es ih =>
    rcases hstep s e hs hC.1 with ⟨s', hs', hinv⟩
    rcases ih hinv (hC.2 s' hs') with ⟨t, ht, htinv⟩
    exact ⟨t, run_cons_ok.2 ⟨s', hs', ht⟩, htinv⟩

/-- Where steps that meet `C` return and keep an invariant with which `P` holds, and those that
do not raise or break `P`, a run returns with `P` at each of its steps if and only if all of
them meet `C`. -/
theorem keeps_iff_meets {Inv P : σ → Prop}
    (hstep : ∀ s e, Inv s → C s e → ∃ s', step s e = .ok s' ∧ Inv s')
    (hholds : ∀ s, Inv s → P s)
    (hbreaks : ∀ s e s', Inv s → ¬ C s e → step s e = .ok s' → ¬ P s')
    {s : σ} {es : List α} (hs : Inv s) :
    (∀ fs, fs <+: es → ∃ t, run step s fs = .ok t ∧ P t) ↔ Meets step C s es := by
  constructor
  · intro h
    induction es generalizing s with
    | nil => trivial
    | cons e es ih =>
      rcases h [e] ⟨es, rfl⟩ with ⟨t, ht, hP⟩
      rcases run_cons_ok.1 ht with ⟨s₁, hs₁, hnil⟩
      obtain rfl : s₁ = t := by simpa using hnil
      have hC : C s e := by
        by_contra hnot
        exact hbreaks s e s₁ hs hnot hs₁ hP
      rcases hstep s e hs hC with ⟨s₂, hs₂, hinv⟩
      obtain rfl := Except.ok.inj (hs₁.symm.trans hs₂)
      refine ⟨hC, ?_⟩
      intro s' hs'
      obtain rfl := Except.ok.inj (hs₁.symm.trans hs')
      apply ih hinv
      intro fs hfs
      rcases h (e :: fs) (List.cons_prefix_cons.2 ⟨rfl, hfs⟩) with ⟨t', ht', hP'⟩
      rcases run_cons_ok.1 ht' with ⟨s₂, hs₂', hrun⟩
      obtain rfl := Except.ok.inj (hs₁.symm.trans hs₂')
      exact ⟨t', hrun, hP'⟩
  · intro h fs hfs
    rcases hfs with ⟨gs, rfl⟩
    rcases run_keeps hstep hs (meets_of_append h) with ⟨t, ht, hinv⟩
    exact ⟨t, ht, hholds t hinv⟩

/-- Where steps that meet `C` keep an invariant with which `P` holds, and those that do not
break `P`, a run always has `P` if and only if all its steps meet `C`. -/
theorem always_iff_meets {Inv P : σ → Prop}
    (hstep : ∀ s e s', Inv s → C s e → step s e = .ok s' → Inv s')
    (hholds : ∀ s, Inv s → P s)
    (hbreaks : ∀ s e, Inv s → ¬ C s e → ∃ s', step s e = .ok s' ∧ ¬ P s')
    {s : σ} {es : List α} (hs : Inv s) :
    (∀ fs t, fs <+: es → run step s fs = .ok t → P t) ↔ Meets step C s es := by
  constructor
  · intro h
    induction es generalizing s with
    | nil => trivial
    | cons e es ih =>
      have hC : C s e := by
        by_contra hnot
        rcases hbreaks s e hs hnot with ⟨s', hs', hbroken⟩
        have hprefix : [e] <+: e :: es := ⟨es, rfl⟩
        exact hbroken (h [e] s' hprefix (run_cons_ok.2 ⟨s', hs', rfl⟩))
      refine ⟨hC, ?_⟩
      intro s' hs'
      apply ih (hstep s e s' hs hC hs')
      intro fs t hfs hrun
      exact h (e :: fs) t (List.cons_prefix_cons.2 ⟨rfl, hfs⟩) (run_cons_ok.2 ⟨s', hs', hrun⟩)
  · intro h fs t hfs hrun
    rcases hfs with ⟨gs, rfl⟩
    exact hholds t (run_invariant hstep hs (meets_of_append h) hrun)

end Lts
