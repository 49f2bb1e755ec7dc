import Praas.Common.Bytes
import Praas.Lib.Layout
import Praas.Lib.Lts

/-! # The fields of fixed-size headers

Both kinds of headers, those on a TCP connection and those on the queues to the workers,
keep strings and integers at fixed offsets. A string that fills its field has no
terminator.

The object that a header is built with also keeps the length of each string that was set
last; a parsed header takes the lengths from the bytes.
-/

namespace Praas.Header

/-! ## Kinds of fields -/

inductive Kind where
  /-- `strncpy` of up to `limit` characters; a reader looks at `rest` more bytes. -/
  | text (limit rest : ℕ)
  | int32
  /-- An `int32_t` that its setter refuses if it is negative. -/
  | size
  | uint64
  | flag
deriving DecidableEq, Repr

namespace Kind

abbrev Arg : Kind → Type
  | text _ _ => StringView
  | int32 | size => Int
  | uint64 => ℕ
  | flag => Bool

abbrev Value : Kind → Type
  | text _ _ => Str
  | int32 | size => Int
  | uint64 => ℕ
  | flag => Bool

def width : Kind → ℕ
  | text limit rest => limit + rest
  | int32 | size => 4
  | uint64 => 8
  | flag => 1

/-- The arguments: a string that fits and holds no NUL, followed by one unless it fills the
field; integers of the parameter's type, within the range that is checked. -/
def Accepts : (k : Kind) → k.Arg → Prop
  | text limit _, v =>
    v.length ≤ limit ∧ v.length ≤ v.data.length ∧ (0 : Byte) ∉ v.chars ∧
      (v.length < limit → v.data[v.length]? = some 0)
  | int32, x => -2 ^ 31 ≤ x ∧ x < 2 ^ 31
  | size, x => 0 ≤ x ∧ x < 2 ^ 31
  | uint64, n => n < 2 ^ 64
  | flag, _ => True

instance : (k : Kind) → (a : k.Arg) → Decidable (k.Accepts a)
  | text _ _, _ => inferInstanceAs (Decidable (_ ∧ _))
  | int32, _ | size, _ => inferInstanceAs (Decidable (_ ∧ _))
  | uint64, n => inferInstanceAs (Decidable (n < 2 ^ 64))
  | flag, _ => isTrue trivial

/-- The value that an argument stands for. -/
def value : (k : Kind) → k.Arg → k.Value
  | text _ _, v => v.chars
  | int32, x | size, x => x
  | uint64, n => n
  | flag, b => b

/-- A field that was never set. -/
def zero : (k : Kind) → k.Value
  | text _ _ => []
  | int32 | size => (0 : Int)
  | uint64 => (0 : ℕ)
  | flag => false

/-- What a setter writes. -/
def bytes : (k : Kind) → k.Arg → List Byte
  | text limit _, v => strncpy v.data limit
  | int32, x | size, x => int32Bytes x
  | uint64, n => leBytes 8 n
  | flag, b => [if b then 1 else 0]

/-- What the getter of a parsed header makes of the range of the field. -/
def decode : (k : Kind) → List Byte → k.Value
  | text _ _, bs => bs.takeWhile (· ≠ 0)
  | int32, bs | size, bs => toSigned 32 (leNat bs)
  | uint64, bs => leNat bs
  | flag, bs => bs.headD 0 ≠ 0

/-- The length that a setter stores beside the header. -/
def length : (k : Kind) → k.Arg → ℕ
  | text _ _, v => v.length
  | int32, _ | size, _ | uint64, _ | flag, _ => 0

/-- The getter of the object that was set, from the start of the field on: the stored length
ends a string. -/
def own : (k : Kind) → List Byte → ℕ → k.Value
  | text _ _, bs, len => bs.take len
  | k, bs, _ => k.decode (bs.take k.width)

/-! ## What stands in the range of a field -/

def Fits : (k : Kind) → k.Value → Prop
  | text limit _, s => s.length ≤ limit ∧ (0 : Byte) ∉ s
  | int32, x => -2 ^ 31 ≤ x ∧ x < 2 ^ 31
  | size, x => 0 ≤ x ∧ x < 2 ^ 31
  | uint64, n => n < 2 ^ 64
  | flag, _ => True

/-- The whole range of a field with the given value. -/
def rep : (k : Kind) → k.Value → List Byte
  | text limit rest, s => s ++ List.replicate (limit + rest - s.length) 0
  | int32, x | size, x => int32Bytes x
  | uint64, n => leBytes 8 n
  | flag, b => [if b then 1 else 0]

theorem length_bytes_le (k : Kind) (a : k.Arg) : (k.bytes a).length ≤ k.width := by
  cases k with
  | text limit rest => simp [bytes, width]
  | _ => simp [bytes, width]

theorem fits_value {k : Kind} {a : k.Arg} (h : k.Accepts a) : k.Fits (k.value a) := by
  cases k with
  | text limit rest =>
    refine ⟨?_, h.2.2.1⟩
    have hlen : (StringView.chars a).length ≤ StringView.length a := List.length_take_le ..
    exact hlen.trans h.1
  | _ => exact h

theorem chars_ofStr (s : Str) : (StringView.ofStr s).chars = s := List.take_left' rfl

/-- The view of a C string that fits. -/
theorem accepts_ofStr {limit rest : ℕ} {s : Str} (h : s.length ≤ limit) (hfree : (0 : Byte) ∉ s) :
    (text limit rest).Accepts (StringView.ofStr s) := by
  have hnul : (StringView.ofStr s).data[(StringView.ofStr s).length]? = some 0 := by
    simp [StringView.ofStr]
  refine ⟨h, ?_, ?_, fun _ => hnul⟩
  · simp [StringView.ofStr]
  · rw [chars_ofStr]
    exact hfree

/-- `strncpy` stops at the terminator, or where the field ends. -/
theorem strncpy_chars {limit rest : ℕ} {v : StringView} (h : (text limit rest).Accepts v) :
    strncpy v.data limit = v.chars ++ List.replicate (limit - v.chars.length) 0 := by
  rcases h with ⟨hlimit, hdata, hfree, hend⟩
  have hchars : ((v.data.take limit).takeWhile (· ≠ 0)) = v.chars := by
    have hall : ∀ b ∈ v.chars, b ≠ 0 := fun b hb h0 => hfree (h0 ▸ hb)
    have hsplit : v.data.take limit = v.chars ++ (v.data.take limit).drop v.length := by
      conv_lhs => rw [← List.take_append_drop v.length (v.data.take limit)]
      rw [List.take_take, Nat.min_eq_left hlimit]
      rfl
    rw [hsplit, List.takeWhile_append_of_pos (by simpa using hall)]
    rcases Nat.lt_or_ge v.length limit with hlt | hge
    · -- the next byte is the terminator
      have hnext : (v.data.take limit).drop v.length = 0 :: (v.data.take limit).drop (v.length + 1) := by
        apply List.drop_eq_getElem?_toList_append .. |>.trans
        rw [List.getElem?_take_of_lt hlt, hend hlt]
        rfl
      rw [hnext]
      simp
    · rw [List.drop_eq_nil_of_le (by rw [List.length_take]; omega)]
      simp
  unfold strncpy
  rw [hchars]

/-- A setter overwrites what an older value left in the range. -/
theorem bytes_append_rep {k : Kind} {a : k.Arg} {old : k.Value} (ha : k.Accepts a)
    (hold : k.Fits old) : k.bytes a ++ (k.rep old).drop (k.bytes a).length = k.rep (k.value a) := by
  cases k with
  | text limit rest =>
    have hlen := (fits_value ha).1
    have hrest : (rep (text limit rest) old).drop limit = List.replicate rest 0 := by
      have hfits : List.length old ≤ limit := hold.1
      simp only [rep]
      rw [List.drop_append, List.drop_eq_nil_of_le hfits, List.nil_append, List.drop_replicate]
      congr 1
      omega
    have hpad : limit + rest - List.length (value (text limit rest) a) =
        (limit - List.length (value (text limit rest) a)) + rest := by
      have hle : List.length (value (text limit rest) a) ≤ limit := hlen
      omega
    show strncpy _ _ ++ _ = value (text limit rest) a ++ List.replicate _ 0
    rw [strncpy_chars ha, hpad, List.replicate_add, ← List.append_assoc]
    congr 1
    have hwritten : (StringView.chars a ++
        List.replicate (limit - (StringView.chars a).length) (0 : Byte)).length = limit := by
      rw [List.length_append, List.length_replicate]
      exact Nat.add_sub_cancel' hlen
    simp only [bytes]
    rw [length_strncpy]
    exact hrest
  | flag => rfl
  | _ => simp [bytes, rep, value]

theorem decode_rep {k : Kind} {v : k.Value} (h : k.Fits v) : k.decode (k.rep v) = v := by
  cases k with
  | text limit rest =>
    have hall : ∀ b ∈ (v : Str), b ≠ 0 := fun b hb h0 => h.2 (h0 ▸ hb)
    show List.takeWhile _ ((v : Str) ++ List.replicate _ 0) = v
    rw [List.takeWhile_append_of_pos (by simpa using hall)]
    simp
  | int32 => exact toSigned_int32Bytes h.1 h.2
  | size => exact toSigned_int32Bytes (le_trans (by norm_num) h.1) h.2
  | uint64 =>
    have hmod : (v : ℕ) % 256 ^ 8 = v := Nat.mod_eq_of_lt (lt_of_lt_of_eq h (by norm_num))
    show leNat (leBytes 8 v) = v
    rw [leNat_leBytes, hmod]
  | flag => cases v <;> rfl

theorem fits_zero (k : Kind) : k.Fits k.zero := by
  cases k <;> simp [Fits, zero]

theorem rep_zero (k : Kind) : k.rep k.zero = List.replicate k.width 0 := by
  cases k <;> simp [rep, zero, width] <;> rfl

theorem take_rep {k : Kind} {v : k.Value} (h : k.Fits v) (tail : List Byte) :
    (k.rep v ++ tail).take k.width = k.rep v := by
  apply List.take_left'
  cases k with
  | text limit rest =>
    have hfits : List.length v ≤ limit := h.1
    simp only [rep, width, List.length_append, List.length_replicate]
    omega
  | _ => simp [rep, width]

/-- With the length of what was set, a string is read back without looking for its end. -/
theorem own_rep {k : Kind} {a : k.Arg} (h : k.Accepts a) (tail : List Byte) :
    k.own (k.rep (k.value a) ++ tail) (k.length a) = k.value a := by
  have hfits := fits_value h
  cases k with
  | text limit rest =>
    have hlen : (StringView.chars a).length = StringView.length a := by
      unfold StringView.chars
      rw [List.length_take]
      exact Nat.min_eq_left h.2.1
    show List.take _ (((StringView.chars a) ++ List.replicate _ 0) ++ tail) = StringView.chars a
    rw [List.append_assoc]
    exact List.take_left' hlen
  | _ =>
    simp only [own]
    rw [take_rep hfits, decode_rep hfits]

theorem own_zero (k : Kind) (tail : List Byte) : k.own (k.rep k.zero ++ tail) 0 = k.zero := by
  have hfits := fits_zero k
  cases k with
  | text limit rest => rfl
  | _ =>
    simp only [own]
    rw [take_rep hfits, decode_rep hfits]

end Kind

/-! ## Formats -/

/-- A header: where its fields are. -/
structure Format (ι : Type) where
  size : ℕ
  kind : ι → Kind
  off : ι → ℕ
  inside : ∀ i, off i + (kind i).width ≤ size
  apart : ∀ i j, i ≠ j → off i + (kind i).width ≤ off j ∨ off j + (kind j).width ≤ off i

namespace Format

variable {ι : Type} (F : Format ι)

/-- The ranges of the fields. -/
def ranges : Layout.Ranges ι where
  size := F.size
  off := F.off
  width i := (F.kind i).width
  inside := F.inside
  apart := F.apart

/-- A call of a setter. -/
structure Call (F : Format ι) where
  field : ι
  arg : (F.kind field).Arg

variable {F}

def Call.Accepted (c : F.Call) : Prop := (F.kind c.field).Accepts c.arg

instance (c : F.Call) : Decidable c.Accepted := inferInstanceAs (Decidable (Kind.Accepts _ _))

def Call.bytes (c : F.Call) : List Byte := (F.kind c.field).bytes c.arg

/-- The bytes and the lengths beside them stand for the record. -/
structure Keeps (data : List Byte) (len : ι → ℕ) (r : ∀ i, (F.kind i).Value) : Prop where
  holds : F.ranges.Holds (fun i => (F.kind i).rep) data r
  fits : ∀ i, (F.kind i).Fits (r i)
  own : ∀ i tail, (F.kind i).own ((F.kind i).rep (r i) ++ tail) (len i) = r i

variable {data : List Byte} {len : ι → ℕ} {r : ∀ i, (F.kind i).Value}

theorem Keeps.decode_load (h : Keeps data len r) (i : ι) :
    (F.kind i).decode (F.ranges.load data i) = r i := by
  rw [h.holds.load]
  exact Kind.decode_rep (h.fits i)

theorem Keeps.own_drop (h : Keeps data len r) (i : ι) :
    (F.kind i).own (data.drop (F.off i)) (len i) = r i := by
  have hsplit : data.drop (F.off i) =
      F.ranges.load data i ++ (data.drop (F.off i)).drop (F.kind i).width :=
    (List.take_append_drop _ _).symm
  rw [hsplit, h.holds.load]
  exact h.own i _

/-- A header with only its type set. -/
theorem keeps_new {type : List Byte} {front rest : ℕ} (htype : type.length = front)
    (hlen : (type ++ List.replicate rest (0 : Byte)).length = F.size)
    (hfront : ∀ i, front ≤ F.off i) :
    Keeps (F := F) (type ++ List.replicate rest 0) (fun _ => 0) (fun i => (F.kind i).zero) where
  holds := by
    refine ⟨hlen, fun i => ?_⟩
    have hinside := F.inside i
    have hoff := hfront i
    rw [List.length_append, List.length_replicate, htype] at hlen
    show ((type ++ List.replicate rest 0).drop (F.off i)).take (F.kind i).width = _
    rw [List.drop_append, List.drop_eq_nil_of_le (htype ▸ hoff), List.nil_append,
      List.drop_replicate, List.take_replicate, htype, Kind.rep_zero]
    congr 1
    omega
  fits i := Kind.fits_zero _
  own i := Kind.own_zero _

variable [DecidableEq ι]

/-- The record after a call: one field has the value that was set. -/
def assign (r : ∀ i, (F.kind i).Value) (c : F.Call) : ∀ i, (F.kind i).Value :=
  Function.update r c.field ((F.kind c.field).value c.arg)

theorem assign_self (r : ∀ i, (F.kind i).Value) (c : F.Call) :
    assign r c c.field = (F.kind c.field).value c.arg :=
  Function.update_self ..

/-- What was set last in each field. -/
def contents (calls : List F.Call) : ∀ i, (F.kind i).Value :=
  calls.foldl assign fun i => (F.kind i).zero

theorem Keeps.set (h : Keeps data len r) {c : F.Call} (hc : c.Accepted) :
    Keeps (F.ranges.store data c.field c.bytes)
      (Function.update len c.field ((F.kind c.field).length c.arg)) (assign r c) where
  holds := by
    refine h.holds.store (Kind.length_bytes_le _ _) ?_
    exact Kind.bytes_append_rep hc (h.fits c.field)
  fits i := by
    unfold assign
    rcases eq_or_ne i c.field with rfl | hne
    · rw [Function.update_self]
      exact Kind.fits_value hc
    · rw [Function.update_of_ne hne]
      exact h.fits i
  own i tail := by
    unfold assign
    rcases eq_or_ne i c.field with rfl | hne
    · rw [Function.update_self, Function.update_self]
      exact Kind.own_rep hc tail
    · rw [Function.update_of_ne hne, Function.update_of_ne hne]
      exact h.own i tail

/-! ## Objects with setters -/

section Objects

variable {σ : Type}

/-- A setter writes the bytes of its argument into its field, and stores the length. -/
def Stores (step : σ → F.Call → Except Fault σ) (bytesOf : σ → List Byte) (lenOf : σ → ι → ℕ) :
    Prop :=
  ∀ o c, c.Accepted → ∃ o', step o c = .ok o' ∧
    bytesOf o' = F.ranges.store (bytesOf o) c.field c.bytes ∧
    lenOf o' = Function.update (lenOf o) c.field ((F.kind c.field).length c.arg)

/-- The fields lie in the buffer behind its first bytes, no two of them overlap, and a setter
writes nothing but its own field. -/
structure Separate (front : ℕ) (step : σ → F.Call → Except Fault σ) (bytesOf : σ → List Byte) :
    Prop where
  inside : ∀ i, front ≤ F.off i ∧ F.off i + (F.kind i).width ≤ F.size
  apart : ∀ i j, i ≠ j →
    F.off i + (F.kind i).width ≤ F.off j ∨ F.off j + (F.kind j).width ≤ F.off i
  frame : ∀ o c o', c.Accepted → step o c = .ok o' →
    (bytesOf o').length = F.size ∧
    (bytesOf o').take (F.off c.field) = (bytesOf o).take (F.off c.field) ∧
    (bytesOf o').drop (F.off c.field + (F.kind c.field).width) =
      (bytesOf o).drop (F.off c.field + (F.kind c.field).width)

variable {step : σ → F.Call → Except Fault σ} {bytesOf : σ → List Byte} {lenOf : σ → ι → ℕ}
  {front : ℕ}

theorem Stores.separate (h : Stores step bytesOf lenOf) (hfront : ∀ i, front ≤ F.off i)
    (hlen : ∀ o, (bytesOf o).length = F.size) : Separate front step bytesOf where
  inside i := ⟨hfront i, F.inside i⟩
  apart := F.apart
  frame := by
    intro o c o' hc hstep
    rcases h o c hc with ⟨o'', ho'', hbytes, -⟩
    obtain rfl := Except.ok.inj (ho''.symm.trans hstep)
    have hwidth := Kind.length_bytes_le (F.kind c.field) c.arg
    refine ⟨hlen o'', ?_, ?_⟩
    · rw [hbytes]
      exact Layout.Ranges.take_store (hlen o) le_rfl
    · rw [hbytes]
      exact Layout.Ranges.drop_store (hlen o) hwidth (Nat.add_le_add_left hwidth _)

/-- The contents are kept in every run of the setters; what lies before all fields stays. -/
theorem Stores.run_keeps (h : Stores step bytesOf lenOf) (hfront : ∀ i, front ≤ F.off i) {o : σ}
    {r : ∀ i, (F.kind i).Value} (ho : Keeps (bytesOf o) (lenOf o) r) {calls : List F.Call}
    (hcalls : ∀ c ∈ calls, c.Accepted) :
    ∃ o', Lts.run step o calls = .ok o' ∧ Keeps (bytesOf o') (lenOf o') (calls.foldl assign r) ∧
      (bytesOf o').take front = (bytesOf o).take front := by
  induction calls generalizing o r with
  | nil => exact ⟨o, rfl, ho, rfl⟩
  | cons c calls ih =>
    have hc : c.Accepted := hcalls c List.mem_cons_self
    rcases h o c hc with ⟨o₁, hok, hbytes, hlen⟩
    have hset : Keeps (bytesOf o₁) (lenOf o₁) (assign r c) := by
      rw [hbytes, hlen]
      exact ho.set hc
    rcases ih hset fun c' hc' => hcalls c' (List.mem_cons_of_mem _ hc') with
      ⟨o', hrun, hkeeps, htake⟩
    refine ⟨o', Lts.run_cons_ok.2 ⟨o₁, hok, hrun⟩, hkeeps, htake.trans ?_⟩
    rw [hbytes]
    exact Layout.Ranges.take_store ho.holds.length (hfront c.field)

end Objects

end Format

end Praas.Header
