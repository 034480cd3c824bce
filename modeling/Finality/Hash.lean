import Finality.Bytes

/-!
# Transaction hashes

A `Hash` names a transaction, and with it the poll that gates it.  It is a byte string of exactly
32 bytes, and hashes are ordered byte by byte.  That order is the order in which every scan, every
resolution and every release proceeds, so all nodes visit the same polls in the same order.
-/

namespace Finality

/-- The hash of a transaction: 32 bytes. -/
structure Hash where
  /-- The bytes, first one most significant. -/
  bytes : Bytes
  /-- There are 32 of them. -/
  length_bytes : bytes.length = 32
deriving DecidableEq

namespace Hash

theorem ext_bytes {a b : Hash} (h : a.bytes = b.bytes) : a = b := by
  cases a
  cases b
  cases h
  rfl

/-- Hashes are compared byte by byte. -/
instance : Ord Hash := ⟨compareOn bytes⟩

instance : Std.TransOrd Hash := inferInstanceAs (Std.TransCmp (compareOn bytes))

instance : Std.LawfulEqOrd Hash where
  eq_of_compare h := ext_bytes (Std.LawfulEqCmp.eq_of_compare (α := Bytes) h)

/-- The hash whose bytes are all zero. -/
def zero : Hash := ⟨List.replicate 32 0, rfl⟩

instance : Inhabited Hash := ⟨zero⟩

/-- Whether every byte is zero. -/
def isZero (h : Hash) : Bool := h.bytes.all (· == 0)

/-- The hash made of a byte string, if that has 32 bytes. -/
def ofBytes? (bs : Bytes) : Option Hash :=
  if h : bs.length = 32 then some ⟨bs, h⟩ else none

/-- The hash with this hexadecimal text: 64 digits in either case. -/
def ofHex? (s : String) : Option Hash := do
  ofBytes? (← Bytes.ofHex? s)

/-- All 32 bytes in hexadecimal. -/
def toHex (h : Hash) : String := h.bytes.toHex

/-- A short name that shows the first four bytes only. -/
def abbreviation (h : Hash) : String :=
  "TxHash(" ++ Bytes.toHex (h.bytes.take 4) ++ ")"

instance : ToString Hash := ⟨toHex⟩

@[simp] theorem ofBytes?_bytes (h : Hash) : ofBytes? h.bytes = some h := by
  simp [ofBytes?, h.length_bytes]

theorem ofBytes?_eq_some_iff {bs : Bytes} {h : Hash} : ofBytes? bs = some h ↔ bs = h.bytes := by
  constructor
  · intro hb
    simp only [ofBytes?] at hb
    split at hb
    · cases hb
      rfl
    · cases hb
  · rintro rfl
    exact ofBytes?_bytes h

end Hash

end Finality
