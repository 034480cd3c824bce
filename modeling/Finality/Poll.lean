import Finality.Account
import Finality.Hash

/-!
# Polls and votes

A phased transaction takes effect only once its *poll* is decided.  This file has the poll with its
voting criteria (`VotingModel`, `BalanceFloor`), its status, the votes cast on it, and the change of
status that a resolution or its undoing writes (`Resolution`).
-/

namespace Finality

/-! ## Voting criteria -/

/-- Who decides a poll, and how much each voice counts. -/
inductive VotingModel where
  /-- Only the accounts of the whitelist vote; every vote counts one. -/
  | none
  /-- Accounts vote; every vote counts one. -/
  | account
  /-- A vote counts the voter's balance of an asset. -/
  | assetWeighted
  /-- A vote counts the voter's balance of a currency. -/
  | currencyWeighted
  /-- The poll is decided by the polls of the transactions it links to. -/
  | transactionApproval
deriving DecidableEq, Inhabited

namespace VotingModel

/-- Whether a vote counts a balance. -/
def isWeighted : VotingModel → Bool
  | .assetWeighted | .currencyWeighted => true
  | _ => false

/-- The kind of holding whose balance a vote counts. -/
def holdingKind? : VotingModel → Option HoldingKind
  | .assetWeighted => some .asset
  | .currencyWeighted => some .currency
  | _ => Option.none

/-- The model's name in configuration and logs. -/
def name : VotingModel → String
  | .none => "none"
  | .account => "account"
  | .assetWeighted => "asset_weighted"
  | .currencyWeighted => "currency_weighted"
  | .transactionApproval => "transaction_approval"

/-- The model's name in messages. -/
def title : VotingModel → String
  | .none => "None"
  | .account => "Account"
  | .assetWeighted => "AssetWeighted"
  | .currencyWeighted => "CurrencyWeighted"
  | .transactionApproval => "TransactionApproval"

/-- A model is weighted exactly when it names a kind of holding. -/
theorem isSome_holdingKind? (m : VotingModel) : m.holdingKind?.isSome = m.isWeighted := by
  cases m <;> rfl

end VotingModel

/-- The balance, if any, of which a voter needs a least amount. -/
inductive BalanceFloor where
  /-- No balance is looked at. -/
  | none
  /-- The balance of the native coin. -/
  | native
  /-- The balance of an asset. -/
  | asset (id : HoldingId)
  /-- The balance of a currency. -/
  | currency (id : HoldingId)
deriving DecidableEq, Inhabited

namespace BalanceFloor

/-- The holding whose balance is looked at. -/
def holding? : BalanceFloor → Option Holding
  | .none => Option.none
  | .native => some .native
  | .asset id => some ⟨.asset, some id⟩
  | .currency id => some ⟨.currency, some id⟩

/-- The floor in messages. -/
def describe : BalanceFloor → String
  | .none => "None"
  | .native => "Native"
  | .asset id => "Asset(" ++ id.describe ++ ")"
  | .currency id => "Currency(" ++ id.describe ++ ")"

end BalanceFloor

/-! ## Status -/

/-- How far the decision of a poll has come. -/
inductive PollStatus where
  /-- Not decided yet. -/
  | pending
  /-- Decided in favour: the transaction is released. -/
  | approved
  /-- Decided against. -/
  | rejected
deriving DecidableEq, Inhabited

namespace PollStatus

/-- Whether the poll is decided. -/
def isResolved : PollStatus → Bool
  | .pending => false
  | _ => true

/-- The status in messages. -/
def title : PollStatus → String
  | .pending => "Pending"
  | .approved => "Approved"
  | .rejected => "Rejected"

/-- Decided is what is not pending. -/
theorem isResolved_iff {status : PollStatus} : status.isResolved = true ↔ status ≠ .pending := by
  cases status <;> simp [isResolved]

end PollStatus

/-! ## Polls -/

/-- The poll of a phased transaction. -/
structure Poll where
  /-- The hash of the transaction. -/
  key : Hash
  /-- The account that submitted the transaction. -/
  account : AccountId
  /-- The height of the block that contains the transaction. -/
  createdHeight : Height
  /-- The height at which the poll is decided. -/
  finishHeight : Height
  /-- Who decides. -/
  model : VotingModel
  /-- The asset or currency that weighs the votes. -/
  holding : Option HoldingId
  /-- The least balance a voter needs. -/
  minBalance : Amount
  /-- The balance that `minBalance` is about. -/
  floor : BalanceFloor
  /-- The weight needed for approval. -/
  quorum : Option Amount
  /-- The accounts allowed to vote, ascending; everybody if there is none. -/
  whitelist : List AccountId
  /-- The transactions whose polls decide this one. -/
  links : List Hash
  /-- Whether it is decided. -/
  status : PollStatus
  /-- The weight counted when it was decided. -/
  tally : Amount
deriving DecidableEq, Inhabited

/-- Where a bisection of a list ends: halve the `width` entries from `start` on, keeping the upper
half unless its first entry is above `x`, until one entry is left.  On an ascending list that is the
last entry not above `x`, if there is one.  As many halvings as there are entries are enough. -/
def bisect {α : Type} [Ord α] (xs : List α) (x : α) : (halvings start width : Nat) → Nat
  | 0, start, _ => start
  | halvings + 1, start, width =>
    if width ≤ 1 then start
    else
      let middle := start + width / 2
      let start' :=
        match xs[middle]? with
        | some y => if compare y x = .gt then start else middle
        | none => start
      bisect xs x halvings start' (width - width / 2)

/-- Whether bisection of a list finds `x`. -/
def bisectContains {α : Type} [Ord α] (xs : List α) (x : α) : Bool :=
  match xs[bisect xs x xs.length 0 xs.length]? with
  | some y => compare y x = .eq
  | none => false

namespace Poll

/-- Whether the poll is not decided yet. -/
def isPending (p : Poll) : Bool := p.status = .pending

/-- Whether only listed accounts may vote. -/
def hasWhitelist (p : Poll) : Bool := !p.whitelist.isEmpty

/-- Whether an account may vote.  The whitelist is kept ascending, so it is searched by
bisection. -/
def admits (p : Poll) (account : AccountId) : Bool :=
  p.whitelist.isEmpty || bisectContains p.whitelist account

/-- Whether the poll is decided by the polls it links to. -/
def isLinked (p : Poll) : Bool := p.model = .transactionApproval

end Poll

/-- A voter's approval of a poll. -/
structure Vote where
  /-- The poll voted on. -/
  poll : Hash
  /-- The account that votes. -/
  voter : AccountId
  /-- What the vote counts, fixed when it was cast. -/
  weight : Amount
  /-- The height of the block that contains the vote. -/
  height : Height
deriving DecidableEq, Inhabited

/-- A change of one poll's status: made by deciding it, or back to pending with no tally when the
decision is undone. -/
structure Resolution where
  /-- The poll. -/
  key : Hash
  /-- Its new status. -/
  status : PollStatus
  /-- Its new tally. -/
  tally : Amount
deriving DecidableEq, Inhabited

/-- The poll after a change of its status. -/
def Poll.resolve (p : Poll) (r : Resolution) : Poll :=
  { p with status := r.status, tally := r.tally }

end Finality
