import Praas.Process.IpcHeader
import Praas.Process.Channel

/-! # The table of buffers of an invocation request

The number of buffers and their lengths stand behind the strings of the header, one
`int32_t` each. `buffers` limits their number by a constant of its own, `MAX_BUFFERS`, and
not by the bytes that are left.

* `writeInts_ok`, `writeInts_outOfBounds`: the loop over the table, when it fits and when
  it does not.
* `Table`: what a parsed header says of the list that was set, and what it keeps.
* `buffer_table_iff`: the lists for which this is so, of those that are accepted.
-/

namespace Praas.Process.IpcHeader

open Ipc (NAME_LENGTH ID_LENGTH)

/-- The header as the channel sends it. -/
def Message.sent (m : Message) : Ipc.Message := ⟨m.data, m.length_data⟩

/-- `*ptr++ = x` for each value, from an offset on. -/
def Message.writeInts (m : Message) (off : ℕ) : List Int → Except Fault Message
  | [] => .ok m
  | x :: xs =>
    if h : off + 4 ≤ BUF_SIZE then (m.setInt32 off h x).writeInts (off + 4) xs
    else .error .outOfBounds

namespace InvocationRequest

def MAX_BUFFERS : ℕ := 16

/-- Where the table starts. -/
def TABLE : ℕ := HEADER_OFFSET + NAME_LENGTH + 2 * ID_LENGTH

/-- `buffers(int32_t* begin, int32_t* end)`; the number of elements is an `int`. -/
def setBuffers (m : Message) (lengths : List Int) : Except Fault Message :=
  let elems := toInt32 lengths.length
  if MAX_BUFFERS < elems then
    .error (.invalidArgument "Number of buffers too large" elems.toNat MAX_BUFFERS)
  else m.writeInts TABLE (elems :: lengths)

/-- `buffers(Iter begin, Iter end)`, whose elements have a `size_t` length. -/
def setBuffersOf (m : Message) (lens : List ℕ) : Except Fault Message :=
  setBuffers m (lens.map toInt32)

end InvocationRequest

namespace InvocationRequestParsed

def buffers (buf : List Byte) : Int := readInt32 buf (2 * ID_LENGTH + NAME_LENGTH)

/-- `buffers_lengths()[i]`. -/
def buffersLengths (buf : List Byte) (i : ℕ) : Except Fault Int :=
  if 2 * ID_LENGTH + NAME_LENGTH + 4 + 4 * i + 4 ≤ buf.length then
    .ok (readInt32 buf (2 * ID_LENGTH + NAME_LENGTH + 4 + 4 * i))
  else .error .outOfBounds

end InvocationRequestParsed

open InvocationRequest InvocationRequestParsed

/-! ## Integers one after the other -/

/-- The bytes of a sequence of `int32_t`. -/
def intsBytes (xs : List Int) : List Byte := xs.flatMap int32Bytes

@[simp] theorem length_intsBytes (xs : List Int) : (intsBytes xs).length = 4 * xs.length := by
  induction xs with
  | nil => rfl
  | cons x xs ih =>
    unfold intsBytes at ih ⊢
    rw [List.flatMap_cons, List.length_append, ih, length_int32Bytes, List.length_cons]
    omega

/-- The bytes of one of them. -/
theorem take_drop_intsBytes {xs : List Int} {i : ℕ} (h : i < xs.length) (tail : List Byte) :
    ((intsBytes xs ++ tail).drop (4 * i)).take 4 = int32Bytes xs[i] := by
  induction xs generalizing i with
  | nil => cases h
  | cons x xs ih =>
    unfold intsBytes at ih ⊢
    rw [List.flatMap_cons, List.append_assoc]
    cases i with
    | zero => exact List.take_left' (length_int32Bytes x)
    | succ i =>
      have hdrop : 4 * (i + 1) = (int32Bytes x).length + 4 * i := by
        rw [length_int32Bytes]
        omega
      rw [hdrop, ← List.drop_drop, List.drop_left]
      exact ih (Nat.lt_of_succ_lt_succ h)

/-- Two writes one after the other are one. -/
theorem splice_splice {bs a b : List Byte} {off : ℕ}
    (h : off + (a.length + b.length) ≤ bs.length) :
    splice (splice bs off a) (off + a.length) b = splice bs off (a ++ b) := by
  have hlen : (bs.take off ++ a).length = off + a.length := by
    rw [List.length_append, List.length_take]
    omega
  unfold splice
  rw [List.take_left' hlen, ← hlen, List.drop_length_add_append, List.drop_drop, hlen,
    List.length_append, Nat.add_assoc]
  simp only [List.append_assoc]

theorem Message.writeInts_ok (m : Message) (off : ℕ) {xs : List Int}
    (h : off + 4 * xs.length ≤ BUF_SIZE) :
    ∃ m', m.writeInts off xs = .ok m' ∧ m'.data = splice m.data off (intsBytes xs) := by
  induction xs generalizing m off with
  | nil => exact ⟨m, rfl, by simp [splice, intsBytes]⟩
  | cons x xs ih =>
    rw [List.length_cons] at h
    have hroom : off + 4 ≤ BUF_SIZE := by omega
    rcases ih (m.setInt32 off hroom x) (off + 4) (by omega) with ⟨m', hm', hdata⟩
    refine ⟨m', ?_, ?_⟩
    · unfold Message.writeInts
      rw [dif_pos hroom, hm']
    · have hfits : off + ((int32Bytes x).length + (intsBytes xs).length) ≤ m.data.length := by
        rw [length_int32Bytes, length_intsBytes, m.length_data]
        omega
      have hone := splice_splice hfits
      rw [length_int32Bytes] at hone
      exact hdata.trans hone

theorem Message.writeInts_outOfBounds (m : Message) {off : ℕ} {xs : List Int} (hoff : off ≤ BUF_SIZE)
    (h : BUF_SIZE < off + 4 * xs.length) : m.writeInts off xs = .error .outOfBounds := by
  induction xs generalizing m off with
  | nil => exact absurd hoff (Nat.not_le.2 h)
  | cons x xs ih =>
    rw [List.length_cons] at h
    unfold Message.writeInts
    split_ifs with hroom
    · exact ih _ hroom (by omega)
    · rfl

/-! ## The table -/

/-- The header keeps its type and its other fields, and gives back the list. -/
structure Table (m m' : Message) (lengths : List Int) : Prop where
  type : m'.data.take 2 = m.data.take 2
  parse : m.data.take 2 = leBytes 2 MessageType.invocationRequest.code →
    m'.parse = .ok (.invocationRequest (m'.data.drop HEADER_OFFSET))
  fields : ∀ f : Field .invocationRequest, f.get m' = f.get m
  count : buffers (m'.data.drop HEADER_OFFSET) = lengths.length
  lengths : ∀ i (h : i < lengths.length),
    buffersLengths (m'.data.drop HEADER_OFFSET) i = .ok lengths[i]

/-- The call refuses the list, or stays inside the header and leaves the table there. -/
def Recorded (m : Message) (result : Except Fault Message) (lengths : List Int) : Prop :=
  (∃ found, result = .error (.invalidArgument "Number of buffers too large" found MAX_BUFFERS)) ∨
    ∃ m', result = .ok m' ∧ Table m m' lengths

/-- The number of lengths that fit behind their count. -/
def ROOM : ℕ := (BUF_SIZE - TABLE) / 4 - 1

section Table

variable {m m' : Message} {lengths : List Int}

/-- All fields lie before the table. -/
theorem fields_before (f : Field .invocationRequest) : f.off + f.kind.width ≤ TABLE := by
  cases f <;> decide

theorem get_eq_of_take {f : Field .invocationRequest} (h : m'.data.take TABLE = m.data.take TABLE) :
    f.get m' = f.get m := by
  have hload : (format .invocationRequest).ranges.load m'.data f =
      (format .invocationRequest).ranges.load m.data f := by
    show (m'.data.drop f.off).take f.kind.width = (m.data.drop f.off).take f.kind.width
    have hbefore := fields_before f
    have hcut : ∀ bs : List Byte, (bs.drop f.off).take f.kind.width =
        ((bs.take TABLE).take (f.off + f.kind.width)).drop f.off := by
      intro bs
      rw [List.take_take, Nat.min_eq_left hbefore, ← List.take_drop]
    rw [hcut, hcut, h]
  rw [Field.get_eq, Field.get_eq, hload]

/-- An element of the table in the parsed header. -/
theorem readInt32_table (hdata : m'.data = splice m.data TABLE (intsBytes lengths)) {i : ℕ}
    (hi : i < lengths.length) (hmin : -2 ^ 31 ≤ lengths[i]) (hmax : lengths[i] < 2 ^ 31) :
    readInt32 (m'.data.drop HEADER_OFFSET) (2 * ID_LENGTH + NAME_LENGTH + 4 * i) = lengths[i] := by
  have hoff : HEADER_OFFSET + (2 * ID_LENGTH + NAME_LENGTH + 4 * i) = TABLE + 4 * i := by
    unfold TABLE
    omega
  have hlen : (m.data.take TABLE).length = TABLE := by
    rw [List.length_take, m.length_data]
    decide
  have hbytes : (m'.data.drop (TABLE + 4 * i)).take 4 = int32Bytes lengths[i] := by
    rw [hdata, ← List.drop_drop]
    unfold splice
    rw [List.append_assoc, List.drop_left' hlen]
    exact take_drop_intsBytes hi _
  rw [readInt32_drop, hoff]
  unfold readInt32
  rw [hbytes]
  exact toSigned_int32Bytes hmin hmax

/-- A list that fits is recorded. -/
theorem setBuffers_ok (m : Message) (hlen : lengths.length ≤ ROOM) :
    ∃ m', setBuffers m lengths = .ok m' ∧
      m'.data = splice m.data TABLE (intsBytes (lengths.length :: lengths)) := by
  have hroom : lengths.length ≤ 13 := hlen
  have helems : toInt32 lengths.length = lengths.length := toInt32_of_lt (by omega)
  have hfits : TABLE + 4 * ((lengths.length : Int) :: lengths).length ≤ BUF_SIZE := by
    have hspace : TABLE + 4 * (13 + 1) ≤ BUF_SIZE := by decide
    rw [List.length_cons]
    omega
  have haccepted : ¬ (MAX_BUFFERS : Int) < lengths.length := by
    unfold MAX_BUFFERS
    omega
  unfold setBuffers
  rw [helems]
  dsimp only
  rw [if_neg haccepted]
  exact m.writeInts_ok TABLE hfits

theorem table_of_data (hdata : m'.data = splice m.data TABLE (intsBytes (lengths.length :: lengths)))
    (hlen : lengths.length ≤ ROOM) (hrange : ∀ x ∈ lengths, -2 ^ 31 ≤ x ∧ x < 2 ^ 31) :
    Table m m' lengths := by
  have hroom : lengths.length ≤ 13 := hlen
  have hfront : m'.data.take TABLE = m.data.take TABLE := by
    have hlength : (m.data.take TABLE).length = TABLE := by
      rw [List.length_take, m.length_data]
      decide
    rw [hdata]
    unfold splice
    rw [List.append_assoc, List.take_left' hlength]
  have htype : m'.data.take 2 = m.data.take 2 := by
    have htwo : ∀ bs : List Byte, bs.take 2 = (bs.take TABLE).take 2 := by
      intro bs
      rw [List.take_take]
      rfl
    rw [htwo m'.data, htwo m.data, hfront]
  refine ⟨htype, ?_, fun f => get_eq_of_take hfront, ?_, ?_⟩
  · intro hrequest
    exact parse_of_type (t := .invocationRequest) rfl (htype.trans hrequest)
  · have hcount := readInt32_table (i := 0) hdata (by simp)
      (by simp only [List.getElem_cons_zero]; omega) (by simp only [List.getElem_cons_zero]; omega)
    exact hcount
  · intro i hi
    have hx := hrange lengths[i] (List.getElem_mem hi)
    have hread := readInt32_table (i := i + 1) hdata (by simpa using hi) hx.1 hx.2
    have hinside : 2 * ID_LENGTH + NAME_LENGTH + 4 + 4 * i + 4 ≤
        (m'.data.drop HEADER_OFFSET).length := by
      have hspace : 2 * ID_LENGTH + NAME_LENGTH + 4 + 4 * 13 ≤ BUF_SIZE - HEADER_OFFSET := by decide
      rw [List.length_drop, m'.length_data]
      omega
    have hindex : 2 * ID_LENGTH + NAME_LENGTH + 4 + 4 * i =
        2 * ID_LENGTH + NAME_LENGTH + 4 * (i + 1) := by omega
    unfold buffersLengths
    rw [if_pos hinside, hindex, hread]
    rfl

/-- A list that is accepted and does not fit is written past the end of the header. -/
theorem setBuffers_outOfBounds (m : Message) (haccepted : toInt32 lengths.length ≤ MAX_BUFFERS)
    (hlen : ROOM < lengths.length) : setBuffers m lengths = .error .outOfBounds := by
  unfold setBuffers
  dsimp only
  rw [if_neg (not_lt.2 haccepted)]
  apply m.writeInts_outOfBounds (by decide)
  have hspace : BUF_SIZE < TABLE + 4 * (ROOM + 1 + 1) := by decide
  rw [List.length_cons]
  omega

/-- What is written is what was asked for, if it fits. -/
theorem recorded_iff (m : Message) {written : List Int}
    (hrange : ∀ x ∈ written, -2 ^ 31 ≤ x ∧ x < 2 ^ 31) (hlength : written.length = lengths.length) :
    Recorded m (setBuffers m written) lengths ↔
      (written.length ≤ ROOM ∧ written = lengths) ∨ MAX_BUFFERS < toInt32 written.length := by
  by_cases hrefused : (MAX_BUFFERS : Int) < toInt32 written.length
  · have hresult : setBuffers m written = .error (.invalidArgument "Number of buffers too large"
        (toInt32 written.length).toNat MAX_BUFFERS) := if_pos hrefused
    exact iff_of_true (Or.inl ⟨_, hresult⟩) (Or.inr hrefused)
  by_cases hlen : written.length ≤ ROOM
  · rcases setBuffers_ok m hlen with ⟨m', hresult, hdata⟩
    have htable : Table m m' written := table_of_data hdata hlen hrange
    constructor
    · rintro (⟨found, herror⟩ | ⟨m'', hok, hgiven⟩)
      · rw [hresult] at herror
        cases herror
      · obtain rfl := Except.ok.inj (hresult.symm.trans hok)
        refine Or.inl ⟨hlen, List.ext_getElem hlength fun i hi hi' => ?_⟩
        exact Except.ok.inj ((htable.lengths i hi).symm.trans (hgiven.lengths i hi'))
    · rintro (⟨-, rfl⟩ | habsurd)
      · exact Or.inr ⟨m', hresult, htable⟩
      · exact absurd habsurd hrefused
  · have hresult := setBuffers_outOfBounds m (not_lt.1 hrefused) (Nat.lt_of_not_le hlen)
    constructor
    · rintro (⟨found, herror⟩ | ⟨m', hok, -⟩)
      · rw [hresult] at herror
        cases herror
      · rw [hresult] at hok
        cases hok
    · rintro (⟨hfits, -⟩ | habsurd)
      · exact absurd hfits hlen
      · exact absurd habsurd hrefused

end Table

/-- The lists that either overload refuses, or records in the header: at most thirteen
lengths, and below `2 ^ 31`. -/
theorem buffer_table_iff (m : Message) :
    (∀ lengths : List Int32,
      Recorded m (setBuffers m (lengths.map Int32.toInt)) (lengths.map Int32.toInt) ↔
        lengths.length ≤ ROOM ∨ MAX_BUFFERS < toInt32 lengths.length) ∧
    ∀ lens : List ℕ,
      Recorded m (setBuffersOf m lens) (lens.map Int.ofNat) ↔
        (lens.length ≤ ROOM ∧ ∀ n ∈ lens, n < 2 ^ 31) ∨ MAX_BUFFERS < toInt32 lens.length := by
  constructor
  · intro lengths
    have hrange : ∀ x ∈ lengths.map Int32.toInt, -2 ^ 31 ≤ x ∧ x < 2 ^ 31 := by
      intro x hx
      rcases List.mem_map.1 hx with ⟨n, -, rfl⟩
      exact ⟨n.le_toInt, n.toInt_lt⟩
    rw [recorded_iff m hrange rfl, List.length_map]
    simp only [and_true]
  · intro lens
    have hrange : ∀ x ∈ lens.map toInt32, -2 ^ 31 ≤ x ∧ x < 2 ^ 31 := by
      intro x hx
      rcases List.mem_map.1 hx with ⟨n, -, rfl⟩
      exact ⟨toInt32_ge n, toInt32_lt n⟩
    have hsame : lens.map toInt32 = lens.map Int.ofNat ↔ ∀ n ∈ lens, n < 2 ^ 31 := by
      rw [List.map_inj_left]
      exact forall₂_congr fun n _ => toInt32_eq_iff n
    unfold setBuffersOf
    rw [recorded_iff m hrange (by simp), List.length_map, hsame]

/-- Fourteen lengths are accepted, and the last one is written behind the header. -/
theorem table_past_header :
    (List.replicate 14 (0 : Int32)).length ≤ MAX_BUFFERS ∧
      setBuffers (Message.new .invocationRequest) (List.replicate 14 0) = .error .outOfBounds ∧
      ¬ Recorded (Message.new .invocationRequest)
        (setBuffers (Message.new .invocationRequest) (List.replicate 14 0))
        (List.replicate 14 0) := by
  have hresult : setBuffers (Message.new .invocationRequest) (List.replicate 14 0) =
      .error .outOfBounds := setBuffers_outOfBounds _ (by decide) (by decide)
  refine ⟨by decide, hresult, ?_⟩
  rw [hresult]
  rintro (⟨found, herror⟩ | ⟨m', hok, -⟩)
  · cases herror
  · cases hok

end Praas.Process.IpcHeader
