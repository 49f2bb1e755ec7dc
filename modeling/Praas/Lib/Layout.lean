import Mathlib.Tactic

/-! # Records in a buffer

Each field of a record has a range of its own in a buffer of fixed size, and a value is
stored in a prefix of the range. `Holds` relates the buffer to the record that it stands
for; a store is an assignment to one field of that record.
-/

namespace Layout

variable {β ι : Type*}

/-- The range of each field; no two of them share a position. -/
structure Ranges (ι : Type*) where
  size : ℕ
  off : ι → ℕ
  width : ι → ℕ
  inside : ∀ i, off i + width i ≤ size
  apart : ∀ i j, i ≠ j → off i + width i ≤ off j ∨ off j + width j ≤ off i

namespace Ranges

variable (L : Ranges ι)

/-- The content of the range of a field. -/
def load (bs : List β) (i : ι) : List β := (bs.drop (L.off i)).take (L.width i)

/-- Overwrite the range of a field from its start. -/
def store (bs : List β) (i : ι) (v : List β) : List β :=
  bs.take (L.off i) ++ v ++ bs.drop (L.off i + v.length)

variable {L} {bs v : List β} {i j : ι}

theorem length_store (hbs : bs.length = L.size) (hv : v.length ≤ L.width i) :
    (L.store bs i v).length = L.size := by
  have hinside := L.inside i
  simp only [store, List.length_append, List.length_take, List.length_drop]
  omega

/-- What lies before the range is not touched. -/
theorem take_store (hbs : bs.length = L.size) {n : ℕ} (hn : n ≤ L.off i) :
    (L.store bs i v).take n = bs.take n := by
  have hinside := L.inside i
  have hlen : (bs.take (L.off i)).length = L.off i := by
    rw [List.length_take]
    omega
  unfold store
  rw [List.append_assoc, List.take_append_of_le_length (by omega), List.take_take,
    Nat.min_eq_left hn]

/-- Nor what lies after what is stored. -/
theorem drop_store (hbs : bs.length = L.size) (hv : v.length ≤ L.width i) {n : ℕ}
    (hn : L.off i + v.length ≤ n) : (L.store bs i v).drop n = bs.drop n := by
  have hinside := L.inside i
  have hlen : (bs.take (L.off i) ++ v).length = L.off i + v.length := by
    rw [List.length_append, List.length_take]
    omega
  unfold store
  rw [List.drop_append, List.drop_eq_nil_of_le (by omega), List.nil_append, List.drop_drop, hlen]
  congr 1
  omega

theorem load_store_self (hbs : bs.length = L.size) (hv : v.length ≤ L.width i) :
    L.load (L.store bs i v) i = v ++ (L.load bs i).drop v.length := by
  have hinside := L.inside i
  have hlen : (bs.take (L.off i)).length = L.off i := by
    rw [List.length_take]
    omega
  unfold load store
  rw [List.append_assoc, List.drop_left' hlen, List.take_append, List.take_of_length_le hv,
    List.drop_take, List.drop_drop]

theorem load_store_of_ne (hbs : bs.length = L.size) (hv : v.length ≤ L.width i) (h : j ≠ i) :
    L.load (L.store bs i v) j = L.load bs j := by
  unfold load
  rcases L.apart j i h with hbefore | hafter
  · -- the range of `j` ends before that of `i` begins
    rw [List.take_drop, List.take_drop, take_store hbs hbefore]
  · rw [drop_store hbs hv (by omega)]

/-! ## The record in the buffer -/

section Records

variable [DecidableEq ι] {α : ι → Type*}

variable (L) in
/-- The buffer holds the record: each field stands in its range as `rep` writes it. -/
structure Holds (rep : ∀ i, α i → List β) (bs : List β) (r : ∀ i, α i) : Prop where
  length : bs.length = L.size
  load : ∀ i, L.load bs i = rep i (r i)

/-- A store that replaces what `rep` wrote of the old value is an assignment. -/
theorem Holds.store {rep : ∀ i, α i → List β} {r : ∀ i, α i} (h : L.Holds rep bs r) {i : ι}
    {a : α i} (hv : v.length ≤ L.width i) (hrep : v ++ (rep i (r i)).drop v.length = rep i a) :
    L.Holds rep (L.store bs i v) (Function.update r i a) where
  length := length_store h.length hv
  load j := by
    rcases eq_or_ne j i with rfl | hne
    · rw [load_store_self h.length hv, h.load, Function.update_self, hrep]
    · rw [load_store_of_ne h.length hv hne, h.load, Function.update_of_ne hne]

end Records

end Ranges

end Layout
