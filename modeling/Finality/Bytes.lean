/-!
# Byte strings

Everything the engine stores or compares comes down to byte strings, so this file fixes them once:

* `Bytes`, a list of bytes, ordered byte by byte with a proper beginning below what it begins;
* `Bytes.toHex` and `Bytes.ofHex?`, two hexadecimal digits per byte;
* `littleEndian` and `bigEndian`, the bytes of a number in a fixed width, with their readers
  `ofLittleEndian` and `ofBigEndian`.  The little-endian form is what records are made of, the
  big-endian one what keys are made of, because its byte order is the order of the numbers.

`ofLittleEndian_littleEndian` and `ofBigEndian_bigEndian` say that a number below `capacity width`
survives either form.
-/

namespace Finality

/-- A byte string. -/
abbrev Bytes := List UInt8

namespace Bytes

/-! ## Hexadecimal text -/

/-- The lower-case hexadecimal digit of a number below sixteen. -/
def hexDigit (n : Nat) : Char :=
  if n < 10 then Char.ofNat (48 + n) else Char.ofNat (87 + n)

/-- The number a hexadecimal digit stands for, in either case; `none` for any other character. -/
def hexValue? (c : Char) : Option Nat :=
  if '0' ≤ c ∧ c ≤ '9' then some (c.toNat - 48)
  else if 'a' ≤ c ∧ c ≤ 'f' then some (c.toNat - 87)
  else if 'A' ≤ c ∧ c ≤ 'F' then some (c.toNat - 55)
  else none

/-- The two digits of one byte, high half first. -/
def hexPair (b : UInt8) : List Char :=
  [hexDigit (b.toNat / 16), hexDigit (b.toNat % 16)]

/-- The text of a byte string: two lower-case digits per byte. -/
def toHex (bs : Bytes) : String :=
  String.ofList (bs.flatMap hexPair)

/-- The bytes whose digits these are, in either case; `none` for an odd number of characters or a
character that is no digit. -/
def ofHexDigits? : List Char → Option Bytes
  | [] => some []
  | [_] => none
  | hi :: lo :: rest => do
    let h ← hexValue? hi
    let l ← hexValue? lo
    let bs ← ofHexDigits? rest
    return UInt8.ofNat (16 * h + l) :: bs

/-- The byte string with this hexadecimal text, if it is one. -/
def ofHex? (s : String) : Option Bytes := ofHexDigits? s.toList

end Bytes

/-! ## Numbers of a fixed width -/

/-- How many numbers can be told apart by `width` bytes. -/
def capacity : Nat → Nat
  | 0 => 1
  | width + 1 => 256 * capacity width

theorem capacity_four : capacity 4 = UInt32.size := rfl

theorem capacity_eight : capacity 8 = UInt64.size := rfl

/-- The `width` bytes of `n`, least significant first; what does not fit is dropped. -/
def littleEndian : (width n : Nat) → Bytes
  | 0, _ => []
  | width + 1, n => UInt8.ofNat n :: littleEndian width (n / 256)

/-- The number with these bytes, least significant first. -/
def ofLittleEndian : Bytes → Nat
  | [] => 0
  | b :: bs => b.toNat + 256 * ofLittleEndian bs

/-- The `width` bytes of `n`, most significant first; what does not fit is dropped. -/
def bigEndian : (width n : Nat) → Bytes
  | 0, _ => []
  | width + 1, n => UInt8.ofNat (n / capacity width) :: bigEndian width n

/-- The number with these bytes, most significant first. -/
def ofBigEndian : Bytes → Nat
  | [] => 0
  | b :: bs => b.toNat * capacity bs.length + ofBigEndian bs

@[simp] theorem length_littleEndian (width n : Nat) : (littleEndian width n).length = width := by
  induction width generalizing n with
  | zero => rfl
  | succ width ih => simp [littleEndian, ih]

@[simp] theorem length_bigEndian (width n : Nat) : (bigEndian width n).length = width := by
  induction width generalizing n with
  | zero => rfl
  | succ width ih => simp [bigEndian, ih]

theorem ofLittleEndian_lt (bs : Bytes) : ofLittleEndian bs < capacity bs.length := by
  induction bs with
  | nil => simp [ofLittleEndian, capacity]
  | cons b bs ih =>
    have hb := b.toNat_lt
    rw [ofLittleEndian, List.length_cons, capacity]
    omega

theorem ofBigEndian_lt (bs : Bytes) : ofBigEndian bs < capacity bs.length := by
  induction bs with
  | nil => simp [ofBigEndian, capacity]
  | cons b bs ih =>
    have hb := b.toNat_lt
    have hmul : b.toNat * capacity bs.length ≤ 255 * capacity bs.length :=
      Nat.mul_le_mul_right _ (by omega)
    rw [ofBigEndian, List.length_cons, capacity]
    omega

/-- Reading the little-endian bytes of a number gives its remainder in that width. -/
theorem ofLittleEndian_littleEndian (width n : Nat) :
    ofLittleEndian (littleEndian width n) = n % capacity width := by
  induction width generalizing n with
  | zero => simp [littleEndian, ofLittleEndian, capacity, Nat.mod_one]
  | succ width ih =>
    rw [littleEndian, ofLittleEndian, ih, capacity, Nat.mod_mul]
    simp

/-- Reading the big-endian bytes of a number gives its remainder in that width. -/
theorem ofBigEndian_bigEndian (width n : Nat) :
    ofBigEndian (bigEndian width n) = n % capacity width := by
  induction width generalizing n with
  | zero => simp [bigEndian, ofBigEndian, capacity, Nat.mod_one]
  | succ width ih =>
    rw [bigEndian, ofBigEndian, ih, length_bigEndian, capacity, Nat.mul_comm 256, Nat.mod_mul]
    simp [Nat.mul_comm, Nat.add_comm]

/-- A little-endian byte string is the one form of its number in its width. -/
theorem littleEndian_ofLittleEndian (bs : Bytes) :
    littleEndian bs.length (ofLittleEndian bs) = bs := by
  induction bs with
  | nil => rfl
  | cons b bs ih =>
    have hb := b.toNat_lt
    have hdiv : (b.toNat + 256 * ofLittleEndian bs) / 256 = ofLittleEndian bs := by omega
    rw [List.length_cons, littleEndian, ofLittleEndian, hdiv, ih]
    congr 1
    apply UInt8.toNat_inj.1
    simp

end Finality
