import Praas.Common.WireFormat
import Praas.Process.IpcHeader

/-! # Strings that are set through views

A setter takes a `string_view` and records its length, but copies up to a terminator that
the view does not promise. The view may be a slice of a larger buffer, so that what is
copied depends on the bytes behind it.

* `Codec`: what the two kinds of headers have in common.
* `decode_bytes_iff`: when the receiver reads the view that was set.
* `unaffected_iff`: when two calls with the same characters write the same header, which is
  read back as these characters.
-/

namespace Praas.Header

namespace Kind

def isText : Kind → Bool
  | text _ _ => true
  | _ => false

/-- The setter raises. -/
def Refuses : (k : Kind) → k.Arg → Prop
  | text limit _, v => limit < v.length
  | size, x => x < 0
  | int32, _ | uint64, _ | flag, _ => False

/-- A view is a slice of a larger buffer: at least one byte follows. -/
def Sliced : (k : Kind) → k.Arg → Prop
  | text _ _, v => v.length < v.data.length
  | int32, _ | size, _ | uint64, _ | flag, _ => True

/-- A view has no NUL, and fills its field or is followed by one. -/
def Ends : (k : Kind) → k.Arg → Prop
  | text limit _, v =>
    (0 : Byte) ∉ v.chars ∧ (v.length = limit ∨ v.data[v.length]? = some 0)
  | int32, _ | size, _ | uint64, _ | flag, _ => True

instance : (k : Kind) → (a : k.Arg) → Decidable (k.Refuses a)
  | text limit _, v => inferInstanceAs (Decidable (limit < v.length))
  | size, x => inferInstanceAs (Decidable (x < 0))
  | int32, _ | uint64, _ | flag, _ => isFalse id

instance : (k : Kind) → (a : k.Arg) → Decidable (k.Sliced a)
  | text _ _, v => inferInstanceAs (Decidable (v.length < v.data.length))
  | int32, _ | size, _ | uint64, _ | flag, _ => isTrue trivial

instance : (k : Kind) → (a : k.Arg) → Decidable (k.Ends a)
  | text _ _, _ => inferInstanceAs (Decidable (_ ∧ _))
  | int32, _ | size, _ | uint64, _ | flag, _ => isTrue trivial

/-- What a reader looks at behind the longest string is zero. -/
def Padded : Kind → List Byte → Prop
  | text limit rest, bs => bs.drop limit = List.replicate rest 0
  | _, _ => True

theorem length_chars {v : StringView} (h : v.length ≤ v.data.length) :
    v.chars.length = v.length := by
  unfold StringView.chars
  rw [List.length_take]
  exact Nat.min_eq_left h

/-- What stands in the field's part of a slice: the view, and the byte behind it unless the
view fills the field. -/
theorem take_slice {v : StringView} {limit : ℕ} (hlimit : v.length ≤ limit)
    (hslice : v.length < v.data.length) :
    (v.length = limit ∧ v.data.take limit = v.chars) ∨
      ∃ b tail, v.length < limit ∧ v.data[v.length]? = some b ∧
        v.data.take limit = v.chars ++ b :: tail := by
  rcases Nat.eq_or_lt_of_le hlimit with heq | hlt
  · exact Or.inl ⟨heq, heq ▸ rfl⟩
  · have hsplit : v.data = v.chars ++ v.data[v.length] :: v.data.drop (v.length + 1) := by
      rw [List.getElem_cons_drop]
      exact (List.take_append_drop _ _).symm
    have hlen := length_chars hslice.le
    refine Or.inr ⟨v.data[v.length], (v.data.drop (v.length + 1)).take (limit - v.length - 1), hlt,
      List.getElem?_eq_getElem hslice, ?_⟩
    obtain ⟨k, hk⟩ : ∃ k, limit - v.length = k + 1 := ⟨limit - v.length - 1, by omega⟩
    conv_lhs => rw [hsplit]
    rw [List.take_append, List.take_of_length_le (hlen.le.trans hlimit), hlen, hk,
      List.take_succ_cons, Nat.add_sub_cancel]

/-- The characters that are copied are those of the view. -/
theorem takeWhile_take_iff {v : StringView} {limit : ℕ} (hlimit : v.length ≤ limit)
    (hslice : v.length < v.data.length) :
    (v.data.take limit).takeWhile (· ≠ 0) = v.chars ↔
      (0 : Byte) ∉ v.chars ∧ (v.length = limit ∨ v.data[v.length]? = some 0) := by
  by_cases hfree : (0 : Byte) ∈ v.chars
  · constructor
    · intro h
      rw [← h] at hfree
      simpa using List.mem_takeWhile_imp hfree
    · intro h
      exact absurd hfree h.1
  · have hall : ∀ b ∈ v.chars, decide (b ≠ 0) = true := by
      intro b hb
      simpa using fun hzero : b = 0 => hfree (hzero ▸ hb)
    rcases take_slice hlimit hslice with ⟨heq, htake⟩ | ⟨b, tail, hlt, hnext, htake⟩
    · rw [htake, List.takeWhile_eq_self_iff.2 hall]
      exact ⟨fun _ => ⟨hfree, Or.inl heq⟩, fun _ => rfl⟩
    · rw [htake, List.takeWhile_append_of_pos hall, hnext]
      have hne : v.length ≠ limit := Nat.ne_of_lt hlt
      by_cases hb : b = 0
      · simp [hb, hfree]
      · simp [hb, hne]

/-- A reader stops where `strncpy` stopped. -/
theorem takeWhile_strncpy (src : List Byte) (n r : ℕ) :
    (strncpy src n ++ List.replicate r 0).takeWhile (· ≠ 0) = (src.take n).takeWhile (· ≠ 0) := by
  have hall : ∀ b ∈ (src.take n).takeWhile (· ≠ 0), decide (b ≠ 0) = true := by
    intro b hb
    simpa using List.mem_takeWhile_imp hb
  unfold strncpy
  rw [List.append_assoc, ← List.replicate_add, List.takeWhile_append_of_pos hall]
  simp

section Text

variable {k : Kind} (hk : k.isText = true)

include hk

/-- The receiver reads the view that was set. -/
theorem decode_bytes_iff {a : k.Arg} {old : List Byte} (hold : k.Padded old)
    (ha : ¬ k.Refuses a) (hslice : k.Sliced a) :
    k.decode (k.bytes a ++ old.drop (k.bytes a).length) = k.value a ↔ k.Ends a := by
  cases k with
  | text limit rest =>
    have hpad : old.drop (strncpy (StringView.data a) limit).length = List.replicate rest 0 := by
      rw [length_strncpy]
      exact hold
    show List.takeWhile _ (strncpy (StringView.data a) limit ++
      old.drop (strncpy (StringView.data a) limit).length) = StringView.chars a ↔ _
    rw [hpad, takeWhile_strncpy]
    exact takeWhile_take_iff (not_lt.1 ha) hslice
  | _ => cases hk

/-- Such a view is accepted as a string that ends. -/
theorem accepts_of_ends {a : k.Arg} (ha : ¬ k.Refuses a) (hslice : k.Sliced a) (hends : k.Ends a) :
    k.Accepts a := by
  cases k with
  | text limit rest =>
    refine ⟨not_lt.1 ha, hslice.le, hends.1, fun hlt => ?_⟩
    exact hends.2.resolve_left (Nat.ne_of_lt hlt)
  | _ => cases hk

/-- The same characters are copied the same way. -/
theorem bytes_eq_of_ends {a₁ a₂ : k.Arg} (ha₁ : k.Accepts a₁) (ha₂ : k.Accepts a₂)
    (hsame : k.value a₁ = k.value a₂) : k.bytes a₁ = k.bytes a₂ := by
  cases k with
  | text limit rest =>
    have hchars : StringView.chars a₁ = StringView.chars a₂ := hsame
    show strncpy (StringView.data a₁) limit = strncpy (StringView.data a₂) limit
    rw [strncpy_chars ha₁, strncpy_chars ha₂, hchars]
  | _ => cases hk

/-- The sender ends a string with the length that was recorded. -/
theorem own_bytes {a : k.Arg} (ha : k.Accepts a) (tail : List Byte) :
    k.own (k.bytes a ++ tail) (k.length a) = k.value a := by
  cases k with
  | text limit rest =>
    show List.take _ (strncpy (StringView.data a) limit ++ tail) = StringView.chars a
    rw [strncpy_chars ha, List.append_assoc]
    exact List.take_left' (length_chars ha.2.1)
  | _ => cases hk

theorem length_eq {a₁ a₂ : k.Arg} (h₁ : k.Sliced a₁) (h₂ : k.Sliced a₂)
    (hsame : k.value a₁ = k.value a₂) : k.length a₁ = k.length a₂ := by
  cases k with
  | text limit rest =>
    have hchars : StringView.chars a₁ = StringView.chars a₂ := hsame
    show StringView.length a₁ = StringView.length a₂
    rw [← length_chars (Nat.le_of_lt h₁), ← length_chars (Nat.le_of_lt h₂), hchars]
  | _ => cases hk

theorem refuses_iff_of_length {a₁ a₂ : k.Arg} (h : k.length a₁ = k.length a₂) :
    k.Refuses a₁ ↔ k.Refuses a₂ := by
  cases k with
  | text limit rest =>
    have hlen : StringView.length a₁ = StringView.length a₂ := h
    show limit < StringView.length a₁ ↔ limit < StringView.length a₂
    rw [hlen]
  | _ => cases hk

end Text

theorem padded_bytes (k : Kind) (a : k.Arg) {old : List Byte} (h : k.Padded old) :
    k.Padded (k.bytes a ++ old.drop (k.bytes a).length) := by
  cases k with
  | text limit rest =>
    show List.drop limit (strncpy (StringView.data a) limit ++ _) = List.replicate rest 0
    rw [List.drop_left' (length_strncpy _ _)]
    show List.drop (strncpy (StringView.data a) limit).length old = _
    rw [length_strncpy]
    exact h
  | _ => trivial

theorem padded_zeros (k : Kind) : k.Padded (List.replicate k.width 0) := by
  cases k with
  | text limit rest => simp [Padded, width]
  | _ => trivial

end Kind

/-! ## The setters of a kind of headers -/

/-- A type of messages: its fields, and the objects that are set. -/
structure Codec where
  Field : Type
  deq : DecidableEq Field
  format : Format Field
  Object : Type
  new : Object
  step : Object → format.Call → Except Fault Object
  /-- The header, and the lengths that are recorded beside it. -/
  bytes : Object → List Byte
  len : Object → Field → ℕ
  /-- The getter of the object. -/
  get : Object → (i : Field) → (format.kind i).Value
  /-- The getter of the header that is received. -/
  received : Object → (i : Field) → (format.kind i).Value
  length_bytes : ∀ o, (bytes o).length = format.size
  get_eq : ∀ o i, get o i = (format.kind i).own ((bytes o).drop (format.off i)) (len o i)
  received_eq : ∀ o i, received o i = (format.kind i).decode (format.ranges.load (bytes o) i)
  blank : ∀ i, format.ranges.load (bytes new) i = List.replicate (format.kind i).width 0
  step_ok : ∀ o c, ¬ (format.kind c.field).Refuses c.arg → ∃ o', step o c = .ok o' ∧
    bytes o' = format.ranges.store (bytes o) c.field c.bytes ∧
    len o' = Function.update (len o) c.field ((format.kind c.field).length c.arg)
  step_refused : ∀ o c, (format.kind c.field).Refuses c.arg → ∃ e, step o c = .error e
  /-- What is said of a string that is too long is its length. -/
  step_error : ∀ o i a₁ a₂, (format.kind i).isText = true → (format.kind i).Refuses a₁ →
    (format.kind i).length a₁ = (format.kind i).length a₂ → step o ⟨i, a₁⟩ = step o ⟨i, a₂⟩

namespace Codec

variable {C : Codec}

instance : DecidableEq C.Field := C.deq

/-- Two calls do the same, and the string that was set is what both sides read. -/
def Unaffected (C : Codec) (o : C.Object) (i : C.Field) (a₁ a₂ : (C.format.kind i).Arg) : Prop :=
  (∃ e, C.step o ⟨i, a₁⟩ = .error e ∧ C.step o ⟨i, a₂⟩ = .error e) ∨
    ∃ o₁ o₂, C.step o ⟨i, a₁⟩ = .ok o₁ ∧ C.step o ⟨i, a₂⟩ = .ok o₂ ∧ C.bytes o₁ = C.bytes o₂ ∧
      (C.received o₁ i = (C.format.kind i).value a₁ ∧ C.get o₁ i = (C.format.kind i).value a₁) ∧
      (C.received o₂ i = (C.format.kind i).value a₂ ∧ C.get o₂ i = (C.format.kind i).value a₂)

/-! ## Runs of the setters -/

theorem step_spec {o o' : C.Object} {c : C.format.Call} (h : C.step o c = .ok o') :
    ¬ (C.format.kind c.field).Refuses c.arg ∧
      C.bytes o' = C.format.ranges.store (C.bytes o) c.field c.bytes ∧
      C.len o' = Function.update (C.len o) c.field ((C.format.kind c.field).length c.arg) := by
  by_cases hrefuses : (C.format.kind c.field).Refuses c.arg
  · rcases C.step_refused o c hrefuses with ⟨e, he⟩
    cases he.symm.trans h
  · rcases C.step_ok o c hrefuses with ⟨o'', ho'', hbytes, hlen⟩
    obtain rfl := Except.ok.inj (ho''.symm.trans h)
    exact ⟨hrefuses, hbytes, hlen⟩

/-- Nothing is ever written behind the longest string of a field. -/
theorem padded_run {calls : List C.format.Call} {o : C.Object}
    (hrun : Lts.run C.step C.new calls = .ok o) (i : C.Field) :
    (C.format.kind i).Padded (C.format.ranges.load (C.bytes o) i) := by
  have hstep : ∀ o c o', (∀ i, (C.format.kind i).Padded (C.format.ranges.load (C.bytes o) i)) →
      C.step o c = .ok o' →
      ∀ i, (C.format.kind i).Padded (C.format.ranges.load (C.bytes o') i) := by
    intro o c o' h hok i
    rcases step_spec hok with ⟨-, hbytes, -⟩
    have hwidth := Kind.length_bytes_le (C.format.kind c.field) c.arg
    rw [hbytes]
    rcases eq_or_ne i c.field with rfl | hne
    · rw [Layout.Ranges.load_store_self (C.length_bytes o) hwidth]
      exact Kind.padded_bytes _ c.arg (h _)
    · rw [Layout.Ranges.load_store_of_ne (C.length_bytes o) hwidth hne]
      exact h i
  have hnew : ∀ i, (C.format.kind i).Padded (C.format.ranges.load (C.bytes C.new) i) := by
    intro i
    rw [C.blank]
    exact Kind.padded_zeros _
  exact Lts.run_always hstep hnew hrun i

/-- The receiver's and the sender's getter after a call. -/
theorem getters_step {o o' : C.Object} {i : C.Field} {a : (C.format.kind i).Arg}
    (h : C.step o ⟨i, a⟩ = .ok o') :
    C.received o' i = (C.format.kind i).decode ((C.format.kind i).bytes a ++
        (C.format.ranges.load (C.bytes o) i).drop ((C.format.kind i).bytes a).length) ∧
      ∃ tail, C.get o' i =
        (C.format.kind i).own ((C.format.kind i).bytes a ++ tail) ((C.format.kind i).length a) := by
  rcases step_spec h with ⟨-, hbytes, hlen⟩
  have hwidth := Kind.length_bytes_le (C.format.kind i) a
  constructor
  · rw [C.received_eq, hbytes]
    congr 1
    exact Layout.Ranges.load_store_self (C.length_bytes o) hwidth
  · have hfront : ((C.bytes o).take (C.format.off i)).length = C.format.off i := by
      have hinside := C.format.inside i
      rw [List.length_take, C.length_bytes]
      omega
    refine ⟨(C.bytes o).drop (C.format.off i + ((C.format.kind i).bytes a).length), ?_⟩
    rw [C.get_eq, hbytes, hlen, Function.update_self]
    congr 1
    show List.drop (C.format.off i) (List.take (C.format.off i) (C.bytes o) ++ _ ++ _) = _
    rw [List.append_assoc]
    exact List.drop_left' hfront

/-- A call that is accepted: the receiver reads the view if it ends as a string does, and then
so does the sender. -/
theorem step_reads {calls : List C.format.Call} {o : C.Object}
    (hrun : Lts.run C.step C.new calls = .ok o) {i : C.Field}
    (htext : (C.format.kind i).isText = true) {a : (C.format.kind i).Arg}
    (hslice : (C.format.kind i).Sliced a) (haccepts : ¬ (C.format.kind i).Refuses a) :
    ∃ o', C.step o ⟨i, a⟩ = .ok o' ∧
      C.bytes o' = C.format.ranges.store (C.bytes o) i ((C.format.kind i).bytes a) ∧
      (C.received o' i = (C.format.kind i).value a ↔ (C.format.kind i).Ends a) ∧
      ((C.format.kind i).Ends a → C.get o' i = (C.format.kind i).value a) := by
  rcases C.step_ok o ⟨i, a⟩ haccepts with ⟨o', ho', hbytes, -⟩
  rcases getters_step ho' with ⟨hreceived, tail, hget⟩
  refine ⟨o', ho', hbytes, ?_, ?_⟩
  · rw [hreceived]
    exact Kind.decode_bytes_iff htext (padded_run hrun i) haccepts hslice
  · intro hends
    rw [hget]
    exact Kind.own_bytes htext (Kind.accepts_of_ends htext haccepts hslice hends) tail

/-- On any object that the setters make, two calls with slices of the same characters are
refused, or do the same and are read back, if and only if both slices end as strings do. -/
theorem unaffected_iff {calls : List C.format.Call} {o : C.Object}
    (hrun : Lts.run C.step C.new calls = .ok o) {i : C.Field}
    (htext : (C.format.kind i).isText = true) {a₁ a₂ : (C.format.kind i).Arg}
    (h₁ : (C.format.kind i).Sliced a₁) (h₂ : (C.format.kind i).Sliced a₂)
    (hsame : (C.format.kind i).value a₁ = (C.format.kind i).value a₂) :
    C.Unaffected o i a₁ a₂ ↔ (C.format.kind i).Refuses a₁ ∨
      (C.format.kind i).Ends a₁ ∧ (C.format.kind i).Ends a₂ := by
  have hlen := Kind.length_eq htext h₁ h₂ hsame
  by_cases hrefuses : (C.format.kind i).Refuses a₁
  · rcases C.step_refused o ⟨i, a₁⟩ hrefuses with ⟨e, he⟩
    have he' := (C.step_error o i a₁ a₂ htext hrefuses hlen).symm.trans he
    exact ⟨fun _ => Or.inl hrefuses, fun _ => Or.inl ⟨e, he, he'⟩⟩
  · have hrefuses' : ¬ (C.format.kind i).Refuses a₂ := by
      rw [← Kind.refuses_iff_of_length htext hlen]
      exact hrefuses
    rcases step_reads hrun htext h₁ hrefuses with ⟨o₁, ho₁, hbytes₁, hends₁, hget₁⟩
    rcases step_reads hrun htext h₂ hrefuses' with ⟨o₂, ho₂, hbytes₂, hends₂, hget₂⟩
    constructor
    · rintro (⟨e, he, -⟩ | ⟨o₁', o₂', ho₁', ho₂', -, ⟨hread₁, -⟩, hread₂, -⟩)
      · cases ho₁.symm.trans he
      · obtain rfl := Except.ok.inj (ho₁.symm.trans ho₁')
        obtain rfl := Except.ok.inj (ho₂.symm.trans ho₂')
        exact Or.inr ⟨hends₁.1 hread₁, hends₂.1 hread₂⟩
    · rintro (h | ⟨hend₁, hend₂⟩)
      · exact absurd h hrefuses
      · have hbytes : C.bytes o₁ = C.bytes o₂ := by
          have ha₁ := Kind.accepts_of_ends htext hrefuses h₁ hend₁
          have ha₂ := Kind.accepts_of_ends htext hrefuses' h₂ hend₂
          rw [hbytes₁, hbytes₂, Kind.bytes_eq_of_ends htext ha₁ ha₂ hsame]
        exact Or.inr ⟨o₁, o₂, ho₁, ho₂, hbytes, ⟨hends₁.2 hend₁, hget₁ hend₁⟩,
          hends₂.2 hend₂, hget₂ hend₂⟩

end Codec

end Praas.Header

/-! ## The two kinds of headers -/

namespace Praas.Message

open Header (Kind Codec)

variable {t : MessageType}

/-- The setters raise, or store what the format says. -/
theorem Field.set_cases (f : Field t) (a : f.kind.Arg) (m : MessageData) :
    (f.kind.Refuses a ∧ ∃ e, f.set a m = .error e) ∨
      (¬ f.kind.Refuses a ∧ ∃ m', f.set a m = .ok m' ∧
        m'.buf = (format t).ranges.store m.buf f (f.kind.bytes a)) := by
  cases f with
  | totalLength | swapSize | returnCode | statusChange | port | lastInvocationTimestamp =>
    exact Or.inr ⟨id, _, rfl, rfl⟩
  | payloadSize | invocations | computationTime =>
    rcases Int.lt_or_le a 0 with hneg | hpos
    · exact Or.inl ⟨hneg, _, if_pos hneg⟩
    · exact Or.inr ⟨Int.not_lt.2 hpos, _, if_neg (Int.not_lt.2 hpos), rfl⟩
  | _ =>
    rcases Nat.lt_or_ge _ (StringView.length a) with hlong | hfits
    · exact Or.inl ⟨hlong, _, if_pos hlong⟩
    · exact Or.inr ⟨Nat.not_lt.2 hfits, setStr_ok hfits m (by decide)⟩

/-- A string that is too long is refused for its length. -/
theorem Field.set_error (f : Field t) (a₁ a₂ : f.kind.Arg) (m : MessageData)
    (htext : f.kind.isText = true) (h : f.kind.Refuses a₁)
    (hlen : f.kind.length a₁ = f.kind.length a₂) : f.set a₁ m = f.set a₂ m := by
  have h' := (Kind.refuses_iff_of_length htext hlen).1 h
  cases f with
  | totalLength | swapSize | returnCode | statusChange | port | lastInvocationTimestamp
  | payloadSize | invocations | computationTime => cases htext
  | _ =>
    refine (if_pos h).trans (Eq.trans ?_ (if_pos h').symm)
    exact congrArg (fun n => Except.error (Fault.invalidArgument _ n _)) hlen

theorem Object.step_of_ok {o : Object t} {c : (format t).Call} {m : MessageData}
    (h : Field.set c.field c.arg o.data = .ok m) : o.step c =
      .ok { data := m, len := Function.update o.len c.field (c.field.kind.length c.arg) } := by
  unfold Object.step
  rw [h]
  rfl

theorem Object.step_of_error {o : Object t} {c : (format t).Call} {e : Fault}
    (h : Field.set c.field c.arg o.data = .error e) : o.step c = .error e := by
  unfold Object.step
  rw [h]
  rfl

def codec (t : MessageType) : Codec where
  Field := Field t
  deq := inferInstance
  format := format t
  Object := Object t
  new := Object.new t
  step := Object.step
  bytes o := o.data.buf
  len := Object.len
  get := Object.get
  received o f := f.get o.data.buf
  length_bytes o := o.data.length_buf
  get_eq _ _ := rfl
  received_eq o f := f.get_eq o.data.buf
  blank f := ((keeps_new t).holds.load f).trans (Kind.rep_zero f.kind)
  step_ok := by
    intro o c hc
    rcases Field.set_cases c.field c.arg o.data with ⟨hrefuses, -⟩ | ⟨-, m, hm, hbuf⟩
    · exact absurd hrefuses hc
    · exact ⟨_, Object.step_of_ok hm, hbuf, rfl⟩
  step_refused := by
    intro o c hc
    rcases Field.set_cases c.field c.arg o.data with ⟨-, e, he⟩ | ⟨haccepts, -⟩
    · exact ⟨e, Object.step_of_error he⟩
    · exact absurd hc haccepts
  step_error := by
    intro o f a₁ a₂ htext hrefuses hlen
    unfold Object.step
    dsimp only
    rw [Field.set_error f a₁ a₂ o.data htext hrefuses hlen]
    have hlen' : f.kind.length a₁ = f.kind.length a₂ := hlen
    rw [hlen']

end Praas.Message

namespace Praas.Process.IpcHeader

open Header (Kind Codec)

variable {t : MessageType}

/-- The setters raise, or store what the format says. -/
theorem Field.set_cases (f : Field t) (a : f.kind.Arg) (m : Message) :
    (f.kind.Refuses a ∧ ∃ e, f.set a m = .error e) ∨
      (¬ f.kind.Refuses a ∧ ∃ m', f.set a m = .ok m' ∧
        m'.data = (format t).ranges.store m.data f (f.kind.bytes a)) := by
  cases f with
  | totalLength | getDataLen | putDataLen | getState | putState | resultBufferLength | returnCode
  | statusChange | keysBufferLength => exact Or.inr ⟨id, _, rfl, rfl⟩
  | _ =>
    rcases Nat.lt_or_ge _ (StringView.length a) with hlong | hfits
    · exact Or.inl ⟨hlong, _, if_pos hlong⟩
    · exact Or.inr ⟨Nat.not_lt.2 hfits, _, if_neg (Nat.not_lt.2 hfits), rfl⟩

theorem Field.set_error (f : Field t) (a₁ a₂ : f.kind.Arg) (m : Message)
    (htext : f.kind.isText = true) (h : f.kind.Refuses a₁)
    (hlen : f.kind.length a₁ = f.kind.length a₂) : f.set a₁ m = f.set a₂ m := by
  have h' := (Kind.refuses_iff_of_length htext hlen).1 h
  cases f with
  | totalLength | getDataLen | putDataLen | getState | putState | resultBufferLength | returnCode
  | statusChange | keysBufferLength => cases htext
  | _ =>
    refine (if_pos h).trans (Eq.trans ?_ (if_pos h').symm)
    exact congrArg (fun n => Except.error (Fault.invalidArgument _ n _)) hlen

theorem Object.step_of_ok {o : Object t} {c : (format t).Call} {m : Message}
    (h : Field.set c.field c.arg o.message = .ok m) : o.step c =
      .ok { message := m, len := Function.update o.len c.field (c.field.kind.length c.arg) } := by
  unfold Object.step
  rw [h]
  rfl

theorem Object.step_of_error {o : Object t} {c : (format t).Call} {e : Fault}
    (h : Field.set c.field c.arg o.message = .error e) : o.step c = .error e := by
  unfold Object.step
  rw [h]
  rfl

def codec (t : MessageType) : Codec where
  Field := Field t
  deq := inferInstance
  format := format t
  Object := Object t
  new := Object.new t
  step := Object.step
  bytes o := o.message.data
  len := Object.len
  get := Object.get
  received o f := f.get o.message
  length_bytes o := o.message.length_data
  get_eq _ _ := rfl
  received_eq o f := f.get_eq o.message
  blank f := ((keeps_new t).holds.load f).trans (Kind.rep_zero f.kind)
  step_ok := by
    intro o c hc
    rcases Field.set_cases c.field c.arg o.message with ⟨hrefuses, -⟩ | ⟨-, m, hm, hdata⟩
    · exact absurd hrefuses hc
    · exact ⟨_, Object.step_of_ok hm, hdata, rfl⟩
  step_refused := by
    intro o c hc
    rcases Field.set_cases c.field c.arg o.message with ⟨-, e, he⟩ | ⟨haccepts, -⟩
    · exact ⟨e, Object.step_of_error he⟩
    · exact absurd hc haccepts
  step_error := by
    intro o f a₁ a₂ htext hrefuses hlen
    unfold Object.step
    dsimp only
    rw [Field.set_error f a₁ a₂ o.message htext hrefuses hlen]
    have hlen' : f.kind.length a₁ = f.kind.length a₂ := hlen
    rw [hlen']

end Praas.Process.IpcHeader

namespace Praas.Process.StringViews

open Header (Kind Codec)

/-- The types of messages on a connection and on the queues to the workers. -/
def codec : Praas.Message.MessageType ⊕ IpcHeader.MessageType → Codec
  | .inl t => Praas.Message.codec t
  | .inr t => IpcHeader.codec t

variable {t : Praas.Message.MessageType ⊕ IpcHeader.MessageType}

/-- Of any type, on any object that its setters make: two calls with slices of the same
characters are refused for their length, or write the same header, from which both sides read
these characters, if and only if no slice has a NUL, and each fills the field or is followed by
one. -/
theorem views_unaffected_iff {calls : List (codec t).format.Call} {o : (codec t).Object}
    (hrun : Lts.run (codec t).step (codec t).new calls = .ok o) {i : (codec t).Field}
    (htext : ((codec t).format.kind i).isText = true)
    {a₁ a₂ : ((codec t).format.kind i).Arg} (h₁ : ((codec t).format.kind i).Sliced a₁)
    (h₂ : ((codec t).format.kind i).Sliced a₂)
    (hsame : ((codec t).format.kind i).value a₁ = ((codec t).format.kind i).value a₂) :
    (codec t).Unaffected o i a₁ a₂ ↔ ((codec t).format.kind i).Refuses a₁ ∨
      ((codec t).format.kind i).Ends a₁ ∧ ((codec t).format.kind i).Ends a₂ :=
  Codec.unaffected_iff hrun htext h₁ h₂ hsame

/-- The name of a put, as a slice that a NUL follows and as one that goes on. -/
def ended : StringView := ⟨str ['a', 'b'] ++ [0], 2⟩
def continued : StringView := ⟨str ['a', 'b', 'c', 'd'], 2⟩

abbrev nameKind : Kind := .text Praas.Message.NAME_LENGTH 0

theorem sliced_samples : nameKind.Sliced ended ∧ nameKind.Sliced continued := by decide

theorem ends_samples : nameKind.Ends ended ∧ ¬ nameKind.Ends continued ∧
    ¬ nameKind.Refuses ended := by decide

theorem no_calls : Lts.run (codec (.inl .putMessage)).step (codec (.inl .putMessage)).new [] =
    .ok (Praas.Message.Object.new .putMessage) := rfl

theorem views_unaffected_sample :
    (codec (.inl .putMessage)).Unaffected (Praas.Message.Object.new .putMessage)
        Praas.Message.Field.putName ended ended ∧
      ¬ (codec (.inl .putMessage)).Unaffected (Praas.Message.Object.new .putMessage)
        Praas.Message.Field.putName ended continued := by
  rcases sliced_samples with ⟨hended, hcontinued⟩
  rcases ends_samples with ⟨hends, hnot, hfits⟩
  constructor
  · exact (views_unaffected_iff (t := .inl .putMessage) no_calls
      (i := Praas.Message.Field.putName) rfl hended hended rfl).2 (Or.inr ⟨hends, hends⟩)
  · intro h
    rcases (views_unaffected_iff (t := .inl .putMessage) no_calls
      (i := Praas.Message.Field.putName) rfl hended hcontinued rfl).1 h with hlong | hboth
    · exact hfits hlong
    · exact hnot hboth.2

/-- The byte behind a name is sent with it. -/
theorem continued_view_sent : ¬ ∀ (t : Praas.Message.MessageType ⊕ IpcHeader.MessageType)
    (calls : List (codec t).format.Call) (o : (codec t).Object),
    Lts.run (codec t).step (codec t).new calls = .ok o →
      ∀ i : (codec t).Field, ((codec t).format.kind i).isText = true →
        ∀ a₁ a₂ : ((codec t).format.kind i).Arg, ((codec t).format.kind i).Sliced a₁ →
          ((codec t).format.kind i).Sliced a₂ →
            ((codec t).format.kind i).value a₁ = ((codec t).format.kind i).value a₂ →
              (codec t).Unaffected o i a₁ a₂ := by
  intro h
  rcases sliced_samples with ⟨hended, hcontinued⟩
  rcases ends_samples with ⟨-, hnot, hfits⟩
  have hunaffected := h (.inl .putMessage) [] _ rfl Praas.Message.Field.putName rfl ended continued
    hended hcontinued rfl
  rcases (Codec.unaffected_iff (C := codec (.inl .putMessage)) no_calls
    (i := Praas.Message.Field.putName) rfl hended hcontinued rfl).1 hunaffected with hlong | hboth
  · exact hfits hlong
  · exact hnot hboth.2

end Praas.Process.StringViews
