import Finality.Engine.Weight

/-!
# Casting votes

A vote in a block is admitted or refused, and what it counts is fixed at once.  The conditions are
checked in one order, and a refusal names the first that fails: the poll exists, it is undecided,
the block is below its finish height, its whitelist has the voter, the voter has not voted on it,
and the voter is eligible.  A refused vote stores nothing.

`tally` sums the weights on a poll, and `rollbackVotesAt` removes the votes of a block that is taken
back.
-/

namespace Finality

/-- Why a vote is refused. -/
inductive RejectReason where
  /-- There is no such poll. -/
  | pollNotFound
  /-- The poll is decided. -/
  | alreadyResolved
  /-- The block is not below the poll's finish height. -/
  | tooLate (finishHeight : Height)
  /-- The poll has a whitelist without the voter. -/
  | notWhitelisted
  /-- The voter has voted on this poll. -/
  | alreadyVoted
  /-- The voter has no voice on this poll. -/
  | ineligible (reason : IneligibleReason)
deriving DecidableEq

/-- What became of a vote. -/
inductive VoteOutcome where
  /-- It is stored, with this weight. -/
  | accepted (weight : Amount)
  /-- It is refused. -/
  | rejected (reason : RejectReason)
deriving DecidableEq

/-- What speaks against a vote, as far as poll, voter and height show it. -/
def Poll.refusal (p : Poll) (voter : AccountId) (height : Height) : Option RejectReason :=
  if !p.isPending then some .alreadyResolved
  else if p.finishHeight ≤ height then some (.tooLate p.finishHeight)
  else if !p.admits voter then some .notWhitelisted
  else none

/-- The sum of weights, as a number of any size. -/
def totalWeight (weights : List Amount) : Nat :=
  weights.foldr (fun w total => w.toNat + total) 0

/-- The sum of weights, unless it is 2^64 or more. -/
def sumWeights? (weights : List Amount) : Option Amount :=
  let total := totalWeight weights
  if total < UInt64.size then some (UInt64.ofNat total) else none

variable {σ : Type}

/-- Casts a vote of an account on a poll in the block at a height. -/
def castVote [PollStore σ] [VoteStore σ] [Ledger σ] (poll : Hash) (voter : AccountId)
    (height : Height) : Action σ EngineError VoteOutcome := do
  match ← inStore (PollStore.findPoll poll) with
  | none => return .rejected .pollNotFound
  | some p =>
    match p.refusal voter height with
    | some reason => return .rejected reason
    | none =>
      if (← inStore (VoteStore.findVote poll voter)).isSome then
        return .rejected .alreadyVoted
      match ← inLedger (p.weightOf voter height) with
      | .ineligible reason => return .rejected (.ineligible reason)
      | .eligible weight =>
        match ← (VoteStore.insertVote { poll, voter, weight, height }).outcome with
        | .ok () => return .accepted weight
        | .error (.duplicate _) => return .rejected .alreadyVoted
        | .error e => throw (.store e)

/-- The exact sum of the weights of these votes on a poll. -/
def sumVotes (poll : Hash) (votes : List Vote) : Action σ EngineError Amount :=
  match sumWeights? (votes.map Vote.weight) with
  | some sum => return sum
  | none => throw (.consistency (.tallyOverflow poll))

/-- The weight that a poll has gathered. -/
def tally [VoteStore σ] (poll : Hash) : Action σ EngineError Amount := do
  sumVotes poll (← inStore (VoteStore.votesOn poll))

/-- Removes the votes listed, one by one, and answers how many of them there were. -/
def deleteVotes [VoteStore σ] : List (Hash × AccountId) → Action σ EngineError Nat
  | [] => return 0
  | (poll, voter) :: rest => do
    let existed ← inStore (VoteStore.deleteVote poll voter)
    let others ← deleteVotes rest
    return if existed then others + 1 else others

/-- Removes the votes that the block at a height contains, and answers how many there were. -/
def rollbackVotesAt [VoteStore σ] (height : Height) : Action σ EngineError Nat := do
  deleteVotes (← inStore (VoteStore.votesCastAt height))

end Finality
