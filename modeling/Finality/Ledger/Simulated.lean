import Finality.Ledger.Interface
import Finality.Table

/-!
# A simulated ledger

A ledger whose whole history is known.  Balances are set from a height onwards; the effect of a
phased transaction is one deferred transfer; a release is recorded at the tip, the height of the
block being applied, and counts for balances from there on.  A balance at a height is therefore
the latest amount set at or below it, with the transfers released at or below it added and taken
away, and cut off at the ends of the 64-bit range.

Releases and undoings of chosen transactions can be made to fail.
-/

namespace Finality

/-- The effect of a phased transaction. -/
structure Transfer where
  /-- The account that pays. -/
  source : AccountId
  /-- The account that is paid. -/
  target : AccountId
  /-- What is paid. -/
  holding : Holding
  /-- How much of it. -/
  amount : Amount
deriving DecidableEq

/-- The amount a transfer adds to the balance of an account in a holding; negative if it takes
away, zero for a transfer to oneself. -/
def Transfer.effectOn (t : Transfer) (account : AccountId) (holding : Holding) : Int :=
  if t.holding = holding then
    (if t.target = account then (t.amount.toNat : Int) else 0)
      - (if t.source = account then (t.amount.toNat : Int) else 0)
  else 0

/-- A ledger with a known history. -/
structure SimulatedLedger where
  /-- The amounts set for an account and a holding, each from a height onwards. -/
  history : AccountId → Holding → Table Height Amount
  /-- The assets and currencies that exist. -/
  holdings : List (HoldingKind × HoldingId)
  /-- The effects of phased transactions. -/
  deferred : Table Hash Transfer
  /-- The released transactions, with the height each was released at. -/
  released : Table Hash Height
  /-- The transactions whose release fails. -/
  failingReleases : List Hash
  /-- The transactions whose undoing fails. -/
  failingUndos : List Hash
  /-- The height of the block being applied, once known. -/
  tip : Option Height

namespace SimulatedLedger

/-- The ledger of which nothing is known. -/
def empty : SimulatedLedger :=
  { history := fun _ _ => ∅, holdings := [], deferred := ∅, released := ∅, failingReleases := [],
    failingUndos := [], tip := none }

instance : Inhabited SimulatedLedger := ⟨empty⟩

/-! ## Setting the scene -/

/-- Sets a balance from a height onwards. -/
def setBalance (account : AccountId) (holding : Holding) (height : Height) (amount : Amount)
    (l : SimulatedLedger) : SimulatedLedger :=
  { l with
    history := fun a h =>
      if a = account ∧ h = holding then (l.history a h).insert height amount else l.history a h }

/-- Adds an asset or a currency. -/
def addHolding (kind : HoldingKind) (id : HoldingId) (l : SimulatedLedger) : SimulatedLedger :=
  { l with holdings := (kind, id) :: l.holdings }

/-- Sets the effect of a phased transaction. -/
def defer (transaction : Hash) (transfer : Transfer) (l : SimulatedLedger) : SimulatedLedger :=
  { l with deferred := l.deferred.insert transaction transfer }

/-- Makes the release of a transaction fail. -/
def failRelease (transaction : Hash) (l : SimulatedLedger) : SimulatedLedger :=
  { l with failingReleases := transaction :: l.failingReleases }

/-- Makes the undoing of a transaction's release fail. -/
def failUndo (transaction : Hash) (l : SimulatedLedger) : SimulatedLedger :=
  { l with failingUndos := transaction :: l.failingUndos }

/-- Lets the release of a transaction, and its undoing, succeed again. -/
def clearFailures (transaction : Hash) (l : SimulatedLedger) : SimulatedLedger :=
  { l with
    failingReleases := l.failingReleases.filter (· ≠ transaction)
    failingUndos := l.failingUndos.filter (· ≠ transaction) }

/-- Moves the tip. -/
def setTip (height : Height) (l : SimulatedLedger) : SimulatedLedger :=
  { l with tip := some height }

/-! ## Balances and releases -/

/-- The latest amount set at or below a height, nothing having been released. -/
def baseBalance (l : SimulatedLedger) (account : AccountId) (holding : Holding) (height : Height) :
    Amount :=
  (((l.history account holding).entries.filter fun e => e.1 ≤ height).getLast?.map (·.2)).getD 0

/-- The sum of what the transfers released at or below a height add to a balance. -/
def releasedEffect (l : SimulatedLedger) (account : AccountId) (holding : Holding)
    (height : Height) : Int :=
  (l.released.entries.filter fun e => e.2 ≤ height).foldr (fun e total =>
    match l.deferred.find? e.1 with
    | some t => t.effectOn account holding + total
    | none => total) 0

/-- An amount cut off at the ends of the 64-bit range. -/
def clamp (n : Int) : Amount := UInt64.ofNat (min n.toNat (UInt64.size - 1))

/-- The balance at the end of a block, which must not be above the tip. -/
def balanceOf (l : SimulatedLedger) (account : AccountId) (holding : Holding) (height : Height) :
    Except LedgerError Amount :=
  let balance :=
    clamp ((l.baseBalance account holding height).toNat + l.releasedEffect account holding height)
  match l.tip with
  | some tip => if tip < height then .error (.heightNotFinal height tip) else .ok balance
  | none => .ok balance

/-- Whether a transaction is released. -/
def isReleased (l : SimulatedLedger) (transaction : Hash) : Bool :=
  l.released.contains transaction

/-- Records a release at the tip. -/
def applyRelease (transaction : Hash) (l : SimulatedLedger) : Except LedgerError SimulatedLedger :=
  if transaction ∈ l.failingReleases then
    .error (.releaseFailed transaction "injected failure")
  else if !l.deferred.contains transaction then .error (.unknownRelease transaction)
  else if l.isReleased transaction then .error (.alreadyReleased transaction)
  else .ok { l with released := l.released.insert transaction (l.tip.getD 0) }

/-- Drops the record of a release. -/
def undoRelease (transaction : Hash) (l : SimulatedLedger) : Except LedgerError SimulatedLedger :=
  if transaction ∈ l.failingUndos then
    .error (.backend ("injected undo failure for " ++ transaction.toHex))
  else if l.isReleased transaction then
    .ok { l with released := l.released.erase transaction }
  else .error (.notReleased transaction)

instance : Ledger SimulatedLedger where
  balanceOf account holding height := Action.query fun l => l.balanceOf account holding height
  holdingExists kind id := Action.query fun l => .ok ((kind, id) ∈ l.holdings : Bool)
  applyRelease transaction := Action.transaction fun l => (l.applyRelease transaction).map ((), ·)
  undoRelease transaction := Action.transaction fun l => (l.undoRelease transaction).map ((), ·)

end SimulatedLedger

end Finality
