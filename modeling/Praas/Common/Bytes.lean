import Mathlib.Tactic

/-! # Bytes, machine integers and C strings

The vocabulary the wire formats are written in: little-endian integers read
through a cast pointer, the conversions between `int32_t` and `size_t`, and the
C string functions the headers are filled and read with.
-/

namespace Praas

/-- `char` and `int8_t` as the eight bits they hold. -/
abbrev Byte := UInt8

/-- `std::string`: any sequence of bytes. -/
abbrev Str := List Byte

/-- Strings are looked up by their characters. -/
instance : LawfulBEq Str := inferInstance

/-- A string literal of the source. -/
def str (cs : List Char) : Str := cs.map fun c => UInt8.ofNat c.toNat

/-- What a raising operation throws, with the data of its message. The last
four stand for what the language leaves to the caller: `value()` of an empty
optional, a null pointer, an iterator that points to no element and a write past
the end of an array. -/
inductive Fault where
  | invalidMessage (type : Int)
  | unknownMessage (type : Int)
  | notImplemented
  | invalidArgument (what : String) (found limit : ℕ)
  | negativeSize (what : String) (size : Int)
  | noIdleWorkers
  | assertion
  | badOptionalAccess
  | nullPointer
  | danglingIterator
  | outOfBounds
deriving DecidableEq, Repr

/-! ## Integers -/

/-- Little-endian value of a sequence of bytes. -/
def leNat : List Byte → ℕ
  | [] => 0
  | b :: bs => b.toNat + 256 * leNat bs

/-- The `n` little-endian bytes of a value. -/
def leBytes : ℕ → ℕ → List Byte
  | 0, _ => []
  | n + 1, v => UInt8.ofNat v :: leBytes n (v / 256)

@[simp] theorem length_leBytes (n v : ℕ) : (leBytes n v).length = n := by
  induction n generalizing v with
  | zero => rfl
  | succ n ih => simp [leBytes, ih]

/-- Two's complement reading of a `w`-bit value. -/
def toSigned (w v : ℕ) : Int := if v < 2 ^ (w - 1) then v else (v : Int) - 2 ^ w

/-- `*reinterpret_cast<const int16_t*>(bs + off)`. -/
def readInt16 (bs : List Byte) (off : ℕ) : Int := toSigned 16 (leNat ((bs.drop off).take 2))

/-- `*reinterpret_cast<const int32_t*>(bs + off)`. -/
def readInt32 (bs : List Byte) (off : ℕ) : Int := toSigned 32 (leNat ((bs.drop off).take 4))

/-- The bytes a store of an `int32_t` writes. -/
def int32Bytes (x : Int) : List Byte := leBytes 4 (x % 2 ^ 32).toNat

@[simp] theorem length_int32Bytes (x : Int) : (int32Bytes x).length = 4 := by
  simp [int32Bytes]

/-- Conversion of an `int32_t` to `size_t`: a negative value wraps around. -/
def sizeT (x : Int) : ℕ := (x % 2 ^ 64).toNat

/-- Conversion of a `size_t` to `int32_t`. -/
def toInt32 (n : ℕ) : Int := toSigned 32 (n % 2 ^ 32)

theorem sizeT_of_nonneg {x : Int} (h0 : 0 ≤ x) (h : x < 2 ^ 64) : (sizeT x : Int) = x := by
  simp only [sizeT, Int.emod_eq_of_lt h0 h]
  omega

/-- A negative length is huge as a `size_t`. -/
theorem sizeT_of_neg {x : Int} (hneg : x < 0) (hmin : -2 ^ 31 ≤ x) : 2 ^ 63 ≤ sizeT x := by
  unfold sizeT
  omega

theorem leNat_lt (bs : List Byte) : leNat bs < 256 ^ bs.length := by
  induction bs with
  | nil => simp [leNat]
  | cons b bs ih =>
    have hb := b.toNat_lt
    simp only [leNat, List.length_cons, pow_succ]
    omega

theorem leNat_leBytes (n v : ℕ) : leNat (leBytes n v) = v % 256 ^ n := by
  induction n generalizing v with
  | zero => simp [leNat, leBytes, Nat.mod_one]
  | succ n ih =>
    have hdigit : (UInt8.ofNat v).toNat = v % 256 := by simp
    rw [leBytes, leNat, ih, hdigit, pow_succ, Nat.mul_comm (256 ^ n), Nat.mod_mul]

theorem toSigned_int32Bytes {x : Int} (h : -2 ^ 31 ≤ x) (h' : x < 2 ^ 31) :
    toSigned 32 (leNat (int32Bytes x)) = x := by
  unfold int32Bytes toSigned
  rw [leNat_leBytes]
  have hmod : (x % 2 ^ 32).toNat % 256 ^ 4 = (x % 2 ^ 32).toNat := Nat.mod_eq_of_lt (by omega)
  rw [hmod]
  split_ifs <;> omega

theorem toInt32_of_lt {n : ℕ} (h : n < 2 ^ 31) : toInt32 n = n := by
  have hmod : n % 2 ^ 32 = n := Nat.mod_eq_of_lt (by omega)
  unfold toInt32 toSigned
  rw [hmod, if_pos h]

theorem toInt32_lt (n : ℕ) : toInt32 n < 2 ^ 31 := by
  unfold toInt32 toSigned
  split <;> omega

theorem toInt32_ge (n : ℕ) : -2 ^ 31 ≤ toInt32 n := by
  unfold toInt32 toSigned
  split <;> omega

/-- A `size_t` keeps its value as an `int32_t` if it is below `2 ^ 31`. -/
theorem toInt32_eq_iff (n : ℕ) : toInt32 n = n ↔ n < 2 ^ 31 := by
  constructor
  · intro h
    have hlt := toInt32_lt n
    omega
  · exact toInt32_of_lt

/-- It is negative if it lies in the upper half of its values modulo `2 ^ 32`. -/
theorem toInt32_neg_iff (n : ℕ) : toInt32 n < 0 ↔ 2 ^ 31 ≤ n % 2 ^ 32 := by
  unfold toInt32 toSigned
  split <;> omega

theorem readInt32_lt (bs : List Byte) (off : ℕ) : readInt32 bs off < 2 ^ 31 := by
  have h := leNat_lt ((bs.drop off).take 4)
  have hlen : ((bs.drop off).take 4).length ≤ 4 := by simp
  have hle : 256 ^ ((bs.drop off).take 4).length ≤ 256 ^ 4 :=
    Nat.pow_le_pow_right (by norm_num) hlen
  have hv : leNat ((bs.drop off).take 4) < 2 ^ 32 := by
    calc leNat ((bs.drop off).take 4) < 256 ^ ((bs.drop off).take 4).length := h
      _ ≤ 256 ^ 4 := hle
      _ = 2 ^ 32 := by norm_num
  unfold readInt32 toSigned
  split <;> omega

theorem readInt32_ge (bs : List Byte) (off : ℕ) : -2 ^ 31 ≤ readInt32 bs off := by
  unfold readInt32 toSigned
  split <;> omega

/-- A non-negative length field reads the same as `size_t`. -/
theorem sizeT_readInt32 {bs : List Byte} {off n : ℕ} (h : readInt32 bs off = n) :
    sizeT (readInt32 bs off) = n := by
  have hlt := readInt32_lt bs off
  have h1 : (sizeT (readInt32 bs off) : Int) = readInt32 bs off :=
    sizeT_of_nonneg (by omega) (by omega)
  omega

/-! ## C strings -/

/-- A `string_view`: the bytes from `data()` on, of which `length` belong to it. -/
structure StringView where
  data : List Byte
  length : ℕ

/-- The view of a `std::string`, which is followed by its terminator. -/
def StringView.ofStr (s : Str) : StringView := ⟨s ++ [0], s.length⟩

/-- The characters of the view. -/
def StringView.chars (v : StringView) : Str := v.data.take v.length

/-- The string of length `strnlen(bs + off, max)` at `bs + off`. -/
def cstr (bs : List Byte) (off max : ℕ) : Str := ((bs.drop off).take max).takeWhile (· ≠ 0)

theorem length_cstr_le (bs : List Byte) (off max : ℕ) : (cstr bs off max).length ≤ max := by
  have h1 : (cstr bs off max).length ≤ ((bs.drop off).take max).length :=
    (List.takeWhile_prefix _).length_le
  have h2 : ((bs.drop off).take max).length ≤ max := List.length_take_le ..
  omega

/-- What `strncpy(dst, src, n)` writes at `dst`: at most `n` characters up to
the terminator, and zeros after them. -/
def strncpy (src : List Byte) (n : ℕ) : List Byte :=
  let s := (src.take n).takeWhile (· ≠ 0)
  s ++ List.replicate (n - s.length) 0

@[simp] theorem length_strncpy (src : List Byte) (n : ℕ) : (strncpy src n).length = n := by
  have h1 : ((src.take n).takeWhile (· ≠ 0)).length ≤ (src.take n).length :=
    (List.takeWhile_prefix _).length_le
  have h2 : (src.take n).length ≤ n := List.length_take_le ..
  simp only [strncpy, List.length_append, List.length_replicate]
  omega

/-- Overwrite the bytes from `off` on. -/
def splice (bs : List Byte) (off : ℕ) (new : List Byte) : List Byte :=
  bs.take off ++ new ++ bs.drop (off + new.length)

theorem length_splice {bs new : List Byte} {off : ℕ} (h : off + new.length ≤ bs.length) :
    (splice bs off new).length = bs.length := by
  simp only [splice, List.length_append, List.length_take, List.length_drop]
  omega

/-- What stands before and behind the bytes that are written stays as it is. -/
theorem take_splice {bs new : List Byte} {off n : ℕ} (hn : n ≤ off) (hoff : off ≤ bs.length) :
    (splice bs off new).take n = bs.take n := by
  unfold splice
  rw [List.append_assoc, List.take_append_of_le_length (by rw [List.length_take]; omega),
    List.take_take, Nat.min_eq_left hn]

theorem drop_splice {bs new : List Byte} {off n : ℕ} (hn : off + new.length ≤ n)
    (hoff : off ≤ bs.length) : (splice bs off new).drop n = bs.drop n := by
  have hfront : (bs.take off ++ new).length = off + new.length := by
    rw [List.length_append, List.length_take, Nat.min_eq_left hoff]
  unfold splice
  rw [List.drop_append, hfront, List.drop_of_length_le (by rw [hfront]; exact hn), List.nil_append,
    List.drop_drop, Nat.add_sub_cancel' hn]

/-- A value that is stored as an `int32_t` is read back. -/
theorem readInt32_splice {bs : List Byte} {off : ℕ} {x : Int} (hoff : off + 4 ≤ bs.length)
    (hmin : -2 ^ 31 ≤ x) (hmax : x < 2 ^ 31) :
    readInt32 (splice bs off (int32Bytes x)) off = x := by
  have htake : ((splice bs off (int32Bytes x)).drop off).take 4 = int32Bytes x := by
    unfold splice
    have hlen : (bs.take off).length = off := by
      rw [List.length_take]
      omega
    rw [List.append_assoc, List.drop_left' hlen]
    exact List.take_left' (length_int32Bytes x)
  unfold readInt32
  rw [htake, toSigned_int32Bytes hmin hmax]

end Praas
