import Finality.Bytes

/-!
# Accounts, heights and holdings

The nouns of the ledger that polls and votes refer to: the height of a block, an amount, an
account, and a holding (an asset or a currency) with its kind.  All numbers are unsigned 64-bit
words.
-/

namespace Finality

/-- The height of a block in the chain. -/
abbrev Height := UInt64

/-- An amount of some holding, a vote's weight, or a sum of weights. -/
abbrev Amount := UInt64

/-! ## Accounts -/

/-- An account of the ledger. -/
structure AccountId where
  /-- The number of the account. -/
  id : UInt64
deriving DecidableEq, Inhabited

namespace AccountId

/-- Accounts are ordered by number. -/
instance : Ord AccountId := ⟨compareOn id⟩

instance : Std.TransOrd AccountId := inferInstanceAs (Std.TransCmp (compareOn id))

instance : Std.LawfulEqOrd AccountId where
  eq_of_compare {a b} h := by
    have hc : compare a.id b.id = .eq := h
    have hid := Std.LawfulEqCmp.eq_of_compare hc
    cases a
    cases b
    cases hid
    rfl

/-- The eight bytes of an account number, most significant first. -/
def toBytes (a : AccountId) : Bytes := bigEndian 8 a.id.toNat

/-- The account whose number has these bytes, most significant first. -/
def ofBytes (bs : Bytes) : AccountId := ⟨UInt64.ofNat (ofBigEndian bs)⟩

@[simp] theorem length_toBytes (a : AccountId) : a.toBytes.length = 8 := length_bigEndian 8 _

/-- Reading the bytes of an account gives it back. -/
@[simp] theorem ofBytes_toBytes (a : AccountId) : ofBytes a.toBytes = a := by
  have h := a.id.toNat_lt
  cases a
  simp only [ofBytes, toBytes, ofBigEndian_bigEndian, capacity_eight, mk.injEq] at h ⊢
  rw [Nat.mod_eq_of_lt h]
  simp

instance : ToString AccountId := ⟨fun a => toString a.id⟩

/-- The number of the account, with the word that says it is one. -/
def describe (a : AccountId) : String := "AccountId(" ++ toString a.id ++ ")"

end AccountId

/-! ## Holdings -/

/-- An asset or a currency of the ledger. -/
structure HoldingId where
  /-- The number of the holding. -/
  id : UInt64
deriving DecidableEq, Inhabited

namespace HoldingId

instance : ToString HoldingId := ⟨fun h => toString h.id⟩

/-- The number of the holding, with the word that says it is one. -/
def describe (h : HoldingId) : String := "HoldingId(" ++ toString h.id ++ ")"

end HoldingId

/-- What a balance is counted in. -/
inductive HoldingKind where
  /-- The chain's own coin, of which there is one. -/
  | native
  /-- An asset, named by its number. -/
  | asset
  /-- A currency, named by its number. -/
  | currency
deriving DecidableEq, Inhabited

/-- The name of a kind in messages. -/
def HoldingKind.title : HoldingKind → String
  | .native => "Native"
  | .asset => "Asset"
  | .currency => "Currency"

/-- What a balance is counted in: a kind, with the number of the asset or currency where the kind
has one. -/
structure Holding where
  /-- The kind of the holding. -/
  kind : HoldingKind
  /-- Its number; absent for the native coin. -/
  id : Option HoldingId
deriving DecidableEq, Inhabited

/-- The chain's own coin. -/
def Holding.native : Holding := ⟨.native, none⟩

end Finality
