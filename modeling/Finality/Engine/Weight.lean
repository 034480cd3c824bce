import Finality.Engine.Error

/-!
# What a vote counts

The weight of a voter on a poll depends on the poll's voting criteria, the voter and a height, and
on nothing else: all balances are read at that height.
-/

namespace Finality

/-- The part of a poll that decides what a vote counts. -/
structure VoterCriteria where
  /-- The voting model. -/
  model : VotingModel
  /-- The asset or currency that weighs the votes. -/
  holding : Option HoldingId
  /-- The balance that `minBalance` is about. -/
  floor : BalanceFloor
  /-- The least balance a voter needs. -/
  minBalance : Amount
deriving DecidableEq

/-- The voting criteria of a poll. -/
def Poll.criteria (p : Poll) : VoterCriteria := ⟨p.model, p.holding, p.floor, p.minBalance⟩

/-- Why an account has no voice. -/
inductive IneligibleReason where
  /-- Its balance is below the floor. -/
  | belowMinBalance (balance required : Amount)
  /-- It has none of the holding that weighs the votes. -/
  | noHolding
deriving DecidableEq

/-- Whether an account may vote, and what its vote counts. -/
inductive Eligibility where
  /-- It may, with this weight. -/
  | eligible (weight : Amount)
  /-- It may not. -/
  | ineligible (reason : IneligibleReason)
deriving DecidableEq

variable {σ : Type} [Ledger σ]

/-- What speaks against a voter whose balance must reach `required`.  Nothing does if no balance is
named or nothing is required; then the ledger is not asked. -/
def checkFloor (floor : BalanceFloor) (required : Amount) (voter : AccountId) (height : Height) :
    Action σ LedgerError (Option IneligibleReason) :=
  match floor.holding? with
  | none => return none
  | some holding =>
    if required = 0 then return none
    else do
      let balance ← Ledger.balanceOf voter holding height
      return if balance < required then some (.belowMinBalance balance required) else none

namespace VoterCriteria

/-- The floor that a voter must reach.  Where accounts vote and no balance is named, it is the
native one. -/
def effectiveFloor (c : VoterCriteria) : BalanceFloor :=
  match c.model, c.floor with
  | .account, .none => .native
  | _, floor => floor

/-- What a vote counts at a height: one, or the voter's balance of the holding that weighs the
votes, provided the floor is reached. -/
def weight (c : VoterCriteria) (voter : AccountId) (height : Height) :
    Action σ LedgerError Eligibility :=
  match c.model with
  | .none | .transactionApproval => return .eligible 1
  | .account => do
    match ← checkFloor c.effectiveFloor c.minBalance voter height with
    | some reason => return .ineligible reason
    | none => return .eligible 1
  | .assetWeighted | .currencyWeighted => do
    match ← checkFloor c.effectiveFloor c.minBalance voter height with
    | some reason => return .ineligible reason
    | none =>
      let kind := c.model.holdingKind?.getD .native
      let balance ← Ledger.balanceOf voter ⟨kind, c.holding⟩ height
      return if balance = 0 then .ineligible .noHolding else .eligible balance

end VoterCriteria

/-- What a vote of this account on this poll counts at a height. -/
def Poll.weightOf (p : Poll) (voter : AccountId) (height : Height) :
    Action σ LedgerError Eligibility :=
  p.criteria.weight voter height

end Finality
