import Finality.Bytes

/-!
# Layouts of records

A `Layout α` says how values of a type lie in a byte string: `encode` writes one, `decode` reads one
from the front of a byte string and hands back the bytes after it.  Layouts are put together from
few parts, and what is true of the parts carries over:

* words of 32 and 64 bits, least significant byte first;
* a fixed number of raw bytes;
* one value after another (`Layout.pair`), and a record as the tuple of its fields
  (`Layout.imap`);
* an optional value behind one byte, 0 or 1;
* a list behind its length, a 64-bit word;
* one of several variants behind the variant's number, a 32-bit word.

Reading goes from front to back, and the first thing wrong is the error reported.
-/

namespace Finality

/-- What can be wrong with an encoded record. -/
inductive DecodeError where
  /-- The bytes end inside the record. -/
  | endOfInput
  /-- The number of a variant is not below the number of variants. -/
  | unknownVariant (tag : UInt32) (variants : Nat)
  /-- The byte before an optional value is neither 0 nor 1. -/
  | unknownOption (tag : UInt8)
deriving DecidableEq

/-- The wording of a decoding error. -/
def DecodeError.message : DecodeError → String
  | .endOfInput => "io error: unexpected end of file"
  | .unknownVariant tag variants =>
    "invalid value: integer `" ++ toString tag ++ "`, expected variant index 0 <= i < "
      ++ toString variants
  | .unknownOption tag => "tag for enum is not valid, found " ++ toString tag

/-- How values of a type lie in a byte string. -/
structure Layout (α : Type) where
  /-- The bytes of a value. -/
  encode : α → Bytes
  /-- The value at the front of a byte string, with the bytes after it. -/
  decode : Bytes → Except DecodeError (α × Bytes)

namespace Layout

variable {α β : Type}

/-- Exactly `n` bytes as they are. -/
def takeBytes (n : Nat) (bs : Bytes) : Except DecodeError (Bytes × Bytes) :=
  if n ≤ bs.length then .ok (bs.take n, bs.drop n) else .error .endOfInput

/-- A 64-bit word, least significant byte first. -/
def word64 : Layout UInt64 where
  encode w := littleEndian 8 w.toNat
  decode bs := do
    let (raw, rest) ← takeBytes 8 bs
    return (UInt64.ofNat (ofLittleEndian raw), rest)

/-- A 32-bit word, least significant byte first. -/
def word32 : Layout UInt32 where
  encode w := littleEndian 4 w.toNat
  decode bs := do
    let (raw, rest) ← takeBytes 4 bs
    return (UInt32.ofNat (ofLittleEndian raw), rest)

/-- One value after another. -/
def pair (a : Layout α) (b : Layout β) : Layout (α × β) where
  encode p := a.encode p.1 ++ b.encode p.2
  decode bs := do
    let (x, rest) ← a.decode bs
    let (y, rest) ← b.decode rest
    return ((x, y), rest)

/-- A type laid out like another one that it corresponds to. -/
def imap (toFields : α → β) (ofFields : β → α) (b : Layout β) : Layout α where
  encode x := b.encode (toFields x)
  decode bs := do
    let (y, rest) ← b.decode bs
    return (ofFields y, rest)

/-- An optional value: the byte 0, or the byte 1 and the value. -/
def option (a : Layout α) : Layout (Option α) where
  encode
    | none => [0]
    | some x => 1 :: a.encode x
  decode
    | [] => .error .endOfInput
    | tag :: rest =>
      if tag = 0 then .ok (none, rest)
      else if tag = 1 then do
        let (x, rest) ← a.decode rest
        return (some x, rest)
      else .error (.unknownOption tag)

/-- So many values, one after another. -/
def decodeMany (a : Layout α) : Nat → Bytes → Except DecodeError (List α × Bytes)
  | 0, bs => .ok ([], bs)
  | n + 1, bs => do
    let (x, rest) ← a.decode bs
    let (xs, rest) ← decodeMany a n rest
    return (x :: xs, rest)

/-- A list: its length, then its members. -/
def list (a : Layout α) : Layout (List α) where
  encode xs := word64.encode (UInt64.ofNat xs.length) ++ xs.flatMap a.encode
  decode bs := do
    let (n, rest) ← word64.decode bs
    decodeMany a n.toNat rest

/-- One of the listed values, as its place in the list. -/
def variant [DecidableEq α] (variants : List α) : Layout α where
  encode x := word32.encode (UInt32.ofNat (variants.idxOf x))
  decode bs := do
    let (tag, rest) ← word32.decode bs
    match variants[tag.toNat]? with
    | some x => return (x, rest)
    | none => throw (.unknownVariant tag variants.length)

end Layout

end Finality
