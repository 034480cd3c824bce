import Finality.Engine.Error
import Finality.Params
import Finality.Sorted

/-!
# Registering polls

A phased transaction in a block asks for a poll.  `validate` checks the request, one condition
after another, and reports the first that fails; `register` stores the poll of a request that
passes.  The conditions that need neither store nor ledger are checked by `checkFinishHeight`,
`checkModel`, `checkWhitelist` and `checkLinkCount`.
-/

namespace Finality

/-- What a phased transaction says about its poll. -/
structure PollRequest where
  /-- The hash of the transaction. -/
  transaction : Hash
  /-- The account that submits it. -/
  account : AccountId
  /-- The height at which the poll is to be decided. -/
  finishHeight : Height
  /-- Who decides. -/
  model : VotingModel
  /-- The asset or currency that weighs the votes. -/
  holding : Option HoldingId
  /-- The least balance a voter needs. -/
  minBalance : Amount
  /-- The balance that `minBalance` is about. -/
  floor : BalanceFloor
  /-- The weight needed for approval. -/
  quorum : Option Amount
  /-- The accounts allowed to vote. -/
  whitelist : List AccountId
  /-- The transactions whose polls decide this one. -/
  links : List Hash
deriving DecidableEq, Inhabited

/-- The highest height at which a poll created at `current` may finish; the greatest height if the
horizon goes beyond it. -/
def Params.maxFinishHeight (params : Params) (current : Height) : Height :=
  let horizon := params.maxFinishHorizon
  if current.toNat + horizon.toNat < UInt64.size then current + horizon
  else UInt64.ofNat (UInt64.size - 1)

namespace PollRequest

/-! ## Conditions on the request alone -/

/-- The poll must finish above the current height and within the horizon. -/
def checkFinishHeight (params : Params) (current : Height) (r : PollRequest) :
    Except RegistrationError Unit :=
  let max := params.maxFinishHeight current
  if r.finishHeight ≤ current then .error (.finishHeightNotAhead r.finishHeight current)
  else if max < r.finishHeight then .error (.finishHeightTooFar r.finishHeight max)
  else .ok ()

/-- A holding is given exactly for weighted models. -/
def checkHolding (r : PollRequest) : Except RegistrationError Unit :=
  match r.model.isWeighted, r.holding with
  | true, none => .error (.missingHolding r.model)
  | false, some _ => .error (.unexpectedHolding r.model)
  | _, _ => .ok ()

/-- A quorum of at least one is given, except for polls decided by links, which have none. -/
def checkQuorum (r : PollRequest) : Except RegistrationError Unit :=
  match r.model, r.quorum with
  | .transactionApproval, some _ => .error .unexpectedQuorum
  | .transactionApproval, none => .ok ()
  | model, none => .error (.missingQuorum model)
  | model, some quorum => if quorum = 0 then .error (.missingQuorum model) else .ok ()

/-- Whether the balance floor fits the model: none where votes count one whoever votes, and a
named balance for every amount of a weighted model. -/
def floorFits (r : PollRequest) : Bool :=
  match r.model with
  | .none | .transactionApproval => r.floor = .none ∧ r.minBalance = 0
  | .account => true
  | .assetWeighted | .currencyWeighted => r.floor ≠ .none ∨ r.minBalance = 0

/-- Holding, quorum, floor, whitelist and links must fit the model. -/
def checkModel (r : PollRequest) : Except RegistrationError Unit := do
  r.checkHolding
  r.checkQuorum
  if !r.floorFits then throw (.invalidMinBalance r.model)
  if r.model = .none ∧ r.whitelist = [] then throw (.missingWhitelist r.model)
  if r.model ≠ .transactionApproval ∧ r.links ≠ [] then throw .unexpectedLinks

/-- The whitelist must be small enough and name no account twice. -/
def checkWhitelist (params : Params) (r : PollRequest) : Except RegistrationError Unit :=
  if params.maxWhitelistSize.toNat < r.whitelist.length then
    .error (.whitelistTooLarge (UInt64.ofNat r.whitelist.length) params.maxWhitelistSize)
  else if ¬ r.whitelist.Nodup then .error .duplicateWhitelistEntry
  else .ok ()

/-- A poll decided by links must have some, not too many, and none twice. -/
def checkLinkCount (params : Params) (r : PollRequest) : Except RegistrationError Unit :=
  if r.links = [] then .error .missingLinks
  else if params.maxLinks.toNat < r.links.length then
    .error (.tooManyLinks (UInt64.ofNat r.links.length) params.maxLinks)
  else if ¬ r.links.Nodup then .error .duplicateLink
  else .ok ()

/-- The assets and currencies that the request names: that of the model, then that of the floor. -/
def namedHoldings (r : PollRequest) : List (HoldingKind × HoldingId) :=
  let ofModel :=
    match r.model.holdingKind?, r.holding with
    | some kind, some id => [(kind, id)]
    | _, _ => []
  let ofFloor :=
    match r.floor.holding? with
    | some ⟨kind, some id⟩ => [(kind, id)]
    | _ => []
  ofModel ++ ofFloor

/-- The poll of a request, created at a height: undecided, its whitelist ascending. -/
def toPoll (r : PollRequest) (height : Height) : Poll :=
  { key := r.transaction
    account := r.account
    createdHeight := height
    finishHeight := r.finishHeight
    model := r.model
    holding := r.holding
    minBalance := r.minBalance
    floor := r.floor
    quorum := r.quorum
    whitelist := sortBy compare r.whitelist
    links := r.links
    status := .pending
    tally := 0 }

end PollRequest

/-! ## Registration -/

variable {σ : Type}

/-- Passes on the verdict of a check. -/
def require (check : Except RegistrationError Unit) : Action σ EngineError Unit :=
  match check with
  | .ok () => return ()
  | .error e => throw (.registration e)

/-- Every asset and currency of the request must exist. -/
def checkHoldingsExist [Ledger σ] (r : PollRequest) : Action σ EngineError Unit :=
  r.namedHoldings.forM fun (kind, id) => do
    if !(← inLedger (Ledger.holdingExists kind id)) then
      throw (.registration (.unknownHolding kind id))

/-- Every linked transaction of a poll decided by links must have a poll. -/
def checkLinks [PollStore σ] (params : Params) (r : PollRequest) : Action σ EngineError Unit := do
  if r.model = .transactionApproval then
    require (r.checkLinkCount params)
    r.links.forM fun link => do
      if (← inStore (PollStore.findPoll link)).isNone then
        throw (.registration (.linkNotPhased link))

/-- Checks everything a poll needs to be accepted into the block at a height; the first condition
that fails is reported. -/
def validate [PollStore σ] [Ledger σ] (params : Params) (r : PollRequest) (height : Height) :
    Action σ EngineError Unit := do
  require (r.checkFinishHeight params height)
  require r.checkModel
  checkHoldingsExist r
  require (r.checkWhitelist params)
  checkLinks params r
  if (← inStore (PollStore.findPoll r.transaction)).isSome then
    throw (.registration (.duplicate r.transaction))

/-- Stores the poll of a request contained in the block at a height, and answers the poll.  A
request that is refused stores nothing. -/
def register [PollStore σ] [Ledger σ] (params : Params) (r : PollRequest) (height : Height) :
    Action σ EngineError Poll := do
  validate params r height
  let poll := r.toPoll height
  match ← (PollStore.insertPoll poll).outcome with
  | .ok () => return poll
  | .error (.duplicate _) => throw (.registration (.duplicate poll.key))
  | .error e => throw (.store e)

end Finality
