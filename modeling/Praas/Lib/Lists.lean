import Mathlib.Tactic

/-! # Taking one element out of a list

What is left when the first element with a property is found and erased, and how
elements pass from one part of a list to another.
-/

namespace Lists

variable {α : Type*}

/-- The element found and what is left without it. -/
theorem find_erase {p : α → Bool} {l : List α} {a : α} (h : l.find? p = some a) :
    p a = true ∧ ∃ before after, l = before ++ a :: after ∧
      l.eraseP p = before ++ after ∧ ∀ x ∈ before, p x = false := by
  rcases List.find?_eq_some_iff_append.1 h with ⟨ha, before, after, rfl, hbefore⟩
  have hskip : ∀ x ∈ before, p x = false := by
    intro x hx
    simpa using hbefore x hx
  refine ⟨ha, before, after, rfl, ?_, hskip⟩
  rw [List.eraseP_append_right _ (fun x hx => by simp [hskip x hx]), List.eraseP_cons_of_pos ha]

/-- A new element joins the first part. -/
theorem perm_snoc_left (l m : List α) (a : α) : (l ++ [a] ++ m).Perm (l ++ m ++ [a]) := by
  rw [List.append_assoc, List.append_assoc]
  exact List.perm_append_comm.append_left l

/-- An element passes from the second part to the first. -/
theorem perm_move_left (l m n : List α) (a : α) :
    (l ++ [a] ++ (m ++ n)).Perm (l ++ (m ++ a :: n)) := by
  rw [List.append_assoc]
  show (l ++ (a :: (m ++ n))).Perm _
  exact List.perm_middle.symm.append_left l

/-- The element at an index, with what stands before and behind it. -/
theorem set_split {l : List α} {i : ℕ} {a : α} (h : l[i]? = some a) (b : α) :
    ∃ before after, l = before ++ a :: after ∧ l.set i b = before ++ b :: after := by
  rcases List.getElem?_eq_some_iff.1 h with ⟨hlt, ha⟩
  refine ⟨l.take i, l.drop (i + 1), ?_, List.set_eq_take_append_cons_drop.trans (if_pos hlt)⟩
  rw [← ha, List.cons_getElem_drop_succ, List.take_append_drop]

/-- How often a pair stands in the graph of a function over distinct points. -/
theorem count_graph {β : Type*} [BEq (α × β)] [LawfulBEq (α × β)] {l : List α} (h : l.Nodup)
    (f : α → β) (a : α) (b : β) [Decidable (a ∈ l ∧ f a = b)] :
    (l.map fun x => (x, f x)).count (a, b) = if a ∈ l ∧ f a = b then 1 else 0 := by
  have hnodup : (l.map fun x => (x, f x)).Nodup :=
    h.map fun x y hxy => (Prod.mk.inj hxy).1
  have hmem : (a, b) ∈ l.map (fun x => (x, f x)) ↔ a ∈ l ∧ f a = b := by
    simp only [List.mem_map, Prod.mk.injEq]
    constructor
    · rintro ⟨x, hx, rfl, hf⟩
      exact ⟨hx, hf⟩
    · rintro ⟨ha, hf⟩
      exact ⟨a, ha, rfl, hf⟩
  by_cases hin : a ∈ l ∧ f a = b
  · rw [if_pos hin, List.count_eq_one_of_mem hnodup (hmem.2 hin)]
  · rw [if_neg hin, List.count_eq_zero_of_not_mem fun h => hin (hmem.1 h)]

/-- What is chosen for one index of a range. -/
theorem filterMap_range (n i : ℕ) (a : α) :
    (List.range n).filterMap (fun j => if j = i then some a else none) =
      if i < n then [a] else [] := by
  induction n with
  | zero => simp
  | succ n ih =>
    rw [List.range_succ, List.filterMap_append, ih]
    rcases lt_trichotomy i n with h | rfl | h
    · simp [h, h.ne', Nat.lt_succ_of_lt h]
    · simp
    · simp [h.ne, not_lt.2 h.le, Nat.not_lt.2 h]

/-- One value of a function changes: how many points of a range satisfy a property. -/
theorem countP_range_update {β : Type*} (f : ℕ → β) (p : β → Bool) {n i : ℕ} (hi : i < n) (v : β) :
    (List.range n).countP (fun j => p (Function.update f i v j)) + (if p (f i) then 1 else 0) =
      (List.range n).countP (fun j => p (f j)) + if p v then 1 else 0 := by
  induction n with
  | zero => exact absurd hi (Nat.not_lt_zero i)
  | succ n ih =>
    rw [List.range_succ, List.countP_append, List.countP_append, List.countP_singleton,
      List.countP_singleton]
    rcases Nat.lt_succ_iff_lt_or_eq.1 hi with hlt | rfl
    · have hlast : Function.update f i v n = f n := Function.update_of_ne hlt.ne' v f
      have hrest := ih hlt
      rw [hlast]
      omega
    · -- the points before the last keep their values
      have hbefore : (List.range i).countP (fun j => p (Function.update f i v j)) =
          (List.range i).countP fun j => p (f j) := by
        apply List.countP_congr
        intro j hj
        rw [Function.update_of_ne (List.mem_range.1 hj).ne]
      rw [hbefore, Function.update_self]
      omega

/-! ## First occurrences -/

section Firsts

variable [BEq α] [LawfulBEq α]

theorem nodup_eraseDups (l : List α) : l.eraseDups.Nodup := by
  induction h : l.length using Nat.strong_induction_on generalizing l with
  | _ n ih =>
    cases l with
    | nil => exact List.nodup_nil
    | cons a l =>
      have hshort : (l.filter fun b => !b == a).length < n := by
        rw [← h, List.length_cons]
        exact Nat.lt_succ_of_le (List.length_filter_le _ _)
      rw [List.eraseDups_cons, List.nodup_cons]
      refine ⟨fun hmem => ?_, ih _ hshort _ rfl⟩
      simpa using List.of_mem_filter (List.mem_eraseDups.1 hmem)

/-- Only what is new is added. -/
theorem eraseDups_snoc (l : List α) (a : α) [Decidable (a ∈ l)] :
    (l ++ [a]).eraseDups = if a ∈ l then l.eraseDups else l.eraseDups ++ [a] := by
  rw [List.eraseDups_append]
  by_cases ha : a ∈ l
  · simp [List.removeAll, ha]
  · simp [List.removeAll, ha, List.eraseDups_cons]

end Firsts

end Lists
