import Finality.Action
import Finality.Poll

/-!
# The ledger

What the engine needs of the account ledger around it: balances at heights that are already final,
whether an asset or a currency exists, and the effects of a phased transaction, which are applied
when its poll is approved and undone when that decision is.
-/

namespace Finality

/-- Why the ledger refuses a call. -/
inductive LedgerError where
  /-- A balance is asked for above the ledger's tip. -/
  | heightNotFinal (requested current : Height)
  /-- The transaction has no effects to release. -/
  | unknownRelease (transaction : Hash)
  /-- The transaction is released already. -/
  | alreadyReleased (transaction : Hash)
  /-- The transaction is not released. -/
  | notReleased (transaction : Hash)
  /-- Releasing the transaction failed. -/
  | releaseFailed (transaction : Hash) (reason : String)
  /-- The ledger itself failed. -/
  | backend (what : String)
deriving DecidableEq

/-- The wording of a ledger error. -/
def LedgerError.message : LedgerError → String
  | .heightNotFinal requested current =>
    "balance at height " ++ toString requested ++ " is not final (ledger is at "
      ++ toString current ++ ")"
  | .unknownRelease tx => "no release recorded for transaction " ++ tx.toHex
  | .alreadyReleased tx => "release of " ++ tx.toHex ++ " was already applied"
  | .notReleased tx => "release of " ++ tx.toHex ++ " is not applied"
  | .releaseFailed tx reason => "release of " ++ tx.toHex ++ " failed: " ++ reason
  | .backend what => "ledger backend error: " ++ what

/-- A ledger, as the engine sees it. -/
class Ledger (σ : Type) where
  /-- The balance of an account in a holding at the end of a block. -/
  balanceOf : AccountId → Holding → Height → Action σ LedgerError Amount
  /-- Whether an asset or a currency exists. -/
  holdingExists : HoldingKind → HoldingId → Action σ LedgerError Bool
  /-- Applies the effects of a phased transaction. -/
  applyRelease : Hash → Action σ LedgerError Unit
  /-- Undoes the effects of a phased transaction. -/
  undoRelease : Hash → Action σ LedgerError Unit

end Finality
