import Praas.Lib.Lts

/-! # Forward simulation of runs that may raise

A system is related to a more abstract one state by state. Every event of the first stands for
some events of the second, which may depend on the state and may be none at all.

* `Agree`: both return related states, or both raise the same;
* `Translates`: the abstract events that a whole run stands for;
* `run_simulates`: from one event to a run.
-/

namespace Lts

variable {σ τ α β ε : Type*}

/-- Both computations return, and the states are related, or both raise the same. -/
inductive Agree (R : σ → τ → Prop) : Except ε σ → Except ε τ → Prop where
  | returned {s : σ} {t : τ} (h : R s t) : Agree R (.ok s) (.ok t)
  | raised (x : ε) : Agree R (.error x) (.error x)

theorem Agree.of_ok {R : σ → τ → Prop} {s : σ} {y : Except ε τ} (h : Agree R (.ok s) y) :
    ∃ t, y = .ok t ∧ R s t := by
  cases h with
  | returned h => exact ⟨_, rfl, h⟩

theorem Agree.ok_of {R : σ → τ → Prop} {x : Except ε σ} {t : τ} (h : Agree R x (.ok t)) :
    ∃ s, x = .ok s ∧ R s t := by
  cases h with
  | returned h => exact ⟨_, rfl, h⟩

variable {step : σ → α → Except ε σ} {astep : τ → β → Except ε τ}

theorem run_append (s : σ) (es fs : List α) :
    run step s (es ++ fs) = (run step s es).bind fun s' => run step s' fs := by
  induction es generalizing s with
  | nil => rfl
  | cons e es ih =>
    rw [List.cons_append]
    simp only [run]
    cases step s e with
    | ok s' => exact ih s'
    | error x => rfl

theorem run_singleton (s : σ) (e : α) : run step s [e] = step s e := by
  simp only [run]
  cases step s e with
  | ok s' => rfl
  | error x => rfl

/-- The abstract events of a run, event by event. -/
inductive Translates (step : σ → α → Except ε σ) (M : σ → α → List β → Prop) :
    σ → List α → List β → Prop where
  | nil (s : σ) : Translates step M s [] []
  | cons {s : σ} {e : α} {es : List α} {fs gs : List β} (h : M s e fs)
      (hrest : ∀ s', step s e = .ok s' → Translates step M s' es gs) :
      Translates step M s (e :: es) (fs ++ gs)

/-- **Simulation.** Where every event that meets `C` is simulated, so is a whole run of them. -/
theorem run_simulates {R : σ → τ → Prop} {C : σ → α → Prop} {M : σ → α → List β → Prop}
    (hstep : ∀ s t e, R s t → C s e →
      ∃ fs, M s e fs ∧ Agree R (step s e) (run astep t fs))
    {s : σ} {t : τ} {es : List α} (h : R s t) (hC : Meets step C s es) :
    ∃ fs, Translates step M s es fs ∧ Agree R (run step s es) (run astep t fs) := by
  induction es generalizing s t with
  | nil => exact ⟨[], .nil s, .returned h⟩
  | cons e es ih =>
    rcases hstep s t e h hC.1 with ⟨fs, hM, hagree⟩
    simp only [run]
    cases hx : step s e with
    | error x =>
      refine ⟨fs ++ [], .cons hM (fun s' hs' => ?_), ?_⟩
      · cases hx.symm.trans hs'
      · rw [hx] at hagree
        rw [List.append_nil]
        exact hagree
    | ok s' =>
      rw [hx] at hagree
      rcases hagree.of_ok with ⟨t', ht', hR⟩
      rcases ih hR (hC.2 s' hx) with ⟨gs, htranslates, hrun⟩
      refine ⟨fs ++ gs, .cons hM (fun s'' hs'' => ?_), ?_⟩
      · obtain rfl := Except.ok.inj (hx.symm.trans hs'')
        exact htranslates
      · rw [run_append, ht']
        exact hrun

end Lts
