import Finality.Ledger.Interface
import Finality.Store.Interface

/-!
# What can go wrong in the engine

Three kinds of failure meet here.  A *registration error* refuses a poll and leaves everything else
alone.  A *consistency error* says that the stored polls and votes contradict each other or the
chain.  Errors of the store and of the ledger are passed on.  All but registration errors are
*fatal*: the block being processed cannot be finished, and the node must stop.

`inStore` and `inLedger` make calls of the store and of the ledger actions of the engine.
-/

namespace Finality

/-! ## Registration -/

/-- Why a poll is refused, in the order in which the conditions are checked. -/
inductive RegistrationError where
  /-- The poll would be over already. -/
  | finishHeightNotAhead (finishHeight currentHeight : Height)
  /-- The poll would last too long. -/
  | finishHeightTooFar (finishHeight maxHeight : Height)
  /-- A weighted model without a holding. -/
  | missingHolding (model : VotingModel)
  /-- A holding for a model that weighs nothing. -/
  | unexpectedHolding (model : VotingModel)
  /-- No quorum, or a quorum of zero, for a model that needs one. -/
  | missingQuorum (model : VotingModel)
  /-- A quorum for a poll that is decided by links. -/
  | unexpectedQuorum
  /-- A balance floor that does not fit the model. -/
  | invalidMinBalance (model : VotingModel)
  /-- No whitelist for the model that needs one. -/
  | missingWhitelist (model : VotingModel)
  /-- Links for a poll that is not decided by them. -/
  | unexpectedLinks
  /-- A holding that does not exist. -/
  | unknownHolding (kind : HoldingKind) (id : HoldingId)
  /-- Too many accounts in the whitelist. -/
  | whitelistTooLarge (size max : UInt64)
  /-- An account twice in the whitelist. -/
  | duplicateWhitelistEntry
  /-- No links for a poll that is decided by them. -/
  | missingLinks
  /-- Too many links. -/
  | tooManyLinks (count max : UInt64)
  /-- A transaction linked twice. -/
  | duplicateLink
  /-- A linked transaction without a poll. -/
  | linkNotPhased (transaction : Hash)
  /-- The transaction has a poll already. -/
  | duplicate (transaction : Hash)
deriving DecidableEq

/-- The wording of a registration error. -/
def RegistrationError.message : RegistrationError → String
  | .finishHeightNotAhead finish current =>
    "finish height " ++ toString finish ++ " must be above the current height " ++ toString current
  | .finishHeightTooFar finish max =>
    "finish height " ++ toString finish ++ " is beyond the maximum " ++ toString max
  | .missingHolding model => "voting model " ++ model.title ++ " requires a holding id"
  | .unexpectedHolding model => "voting model " ++ model.title ++ " does not take a holding id"
  | .missingQuorum model => "voting model " ++ model.title ++ " requires a quorum of at least 1"
  | .unexpectedQuorum => "transaction approval polls take no quorum"
  | .invalidMinBalance model =>
    "minimum balance settings are not valid for voting model " ++ model.title
  | .missingWhitelist model => "voting model " ++ model.title ++ " requires a whitelist"
  | .unexpectedLinks => "linked transactions are only allowed for transaction approval polls"
  | .unknownHolding kind id => kind.title ++ " " ++ toString id ++ " does not exist"
  | .whitelistTooLarge size max =>
    "whitelist has " ++ toString size ++ " entries, the maximum is " ++ toString max
  | .duplicateWhitelistEntry => "whitelist contains duplicate accounts"
  | .missingLinks => "transaction approval polls require linked transactions"
  | .tooManyLinks count max =>
    toString count ++ " linked transactions given, the maximum is " ++ toString max
  | .duplicateLink => "linked transactions contain duplicates"
  | .linkNotPhased tx => "linked transaction " ++ tx.toHex ++ " is not a phased transaction"
  | .duplicate tx => "a poll for transaction " ++ tx.toHex ++ " already exists"

/-! ## Consistency -/

/-- How stored polls and votes contradict each other or the chain. -/
inductive ConsistencyError where
  /-- The weights on a poll sum to 2^64 or more. -/
  | tallyOverflow (poll : Hash)
  /-- A link to a transaction that has no poll. -/
  | missingLinkedPoll (poll link : Hash)
  /-- A poll due at a height is decided already. -/
  | doubleResolution (poll : Hash) (height : Height)
  /-- A linked poll was due at an earlier height and is not decided. -/
  | stalePending (link : Hash) (finishHeight height : Height)
  /-- A poll that no registration accepts. -/
  | malformedPoll (poll : Hash)
  /-- A poll of a block being taken back is decided. -/
  | rollbackOfResolved (poll : Hash) (height : Height)
deriving DecidableEq

/-- The wording of a consistency error. -/
def ConsistencyError.message : ConsistencyError → String
  | .tallyOverflow poll => "tally overflow on poll " ++ poll.toHex
  | .missingLinkedPoll poll link =>
    "poll " ++ poll.toHex ++ " links to " ++ link.toHex ++ ", which has no poll"
  | .doubleResolution poll height =>
    "poll " ++ poll.toHex ++ " finishing at " ++ toString height ++ " is already resolved"
  | .stalePending link finish height =>
    "linked poll " ++ link.toHex ++ " finished at " ++ toString finish
      ++ " but is still pending at " ++ toString height
  | .malformedPoll poll =>
    "poll " ++ poll.toHex ++ " has parameters no registration could have produced"
  | .rollbackOfResolved poll height =>
    "poll " ++ poll.toHex ++ " registered at " ++ toString height ++ " is already resolved"

/-! ## The engine -/

/-- Why the engine refuses a call or gives it up. -/
inductive EngineError where
  /-- The poll is refused; nothing was stored. -/
  | registration (e : RegistrationError)
  /-- The stored state contradicts itself. -/
  | consistency (e : ConsistencyError)
  /-- The store failed. -/
  | store (e : StoreError)
  /-- The ledger failed. -/
  | ledger (e : LedgerError)
deriving DecidableEq

namespace EngineError

/-- The wording of an engine error. -/
def message : EngineError → String
  | .registration e => "invalid poll: " ++ e.message
  | .consistency e => "consensus consistency violation: " ++ e.message
  | .store e => "store error: " ++ e.message
  | .ledger e => "ledger error: " ++ e.message

/-- Whether the block being processed cannot be finished.  Only a refused registration is
harmless. -/
def isFatal : EngineError → Bool
  | .registration _ => false
  | _ => true

end EngineError

/-! ## Calls of the store and of the ledger -/

variable {σ α : Type}

/-- A call of the store, as an action of the engine. -/
def inStore (x : Action σ StoreError α) : Action σ EngineError α := x.mapError .store

/-- A call of the ledger, as an action of the engine. -/
def inLedger (x : Action σ LedgerError α) : Action σ EngineError α := x.mapError .ledger

end Finality
