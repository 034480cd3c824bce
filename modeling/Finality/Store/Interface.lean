import Finality.Action
import Finality.Poll

/-!
# Stores of polls and votes

What the engine needs of a store, whatever keeps the data: the classes `PollStore` and `VoteStore`
list the calls, with the order in which each answers.  What can be had from those calls alone is
defined once for all stores (`pendingFinishingAt`, `pendingOf`, `countVotes`).
-/

namespace Finality

/-! ## Errors -/

/-- Why a store refuses a call. -/
inductive StoreError where
  /-- Something that must be there is missing. -/
  | notFound (what : String)
  /-- Something that must be new is there already. -/
  | duplicate (what : String)
  /-- The storage itself failed. -/
  | backend (what : String)
  /-- A record cannot be read. -/
  | serialization (what : String)
  /-- The contents contradict themselves. -/
  | corruption (what : String)
deriving DecidableEq

namespace StoreError

/-- The wording of a store error. -/
def message : StoreError → String
  | .notFound what => "key not found: " ++ what
  | .duplicate what => "duplicate key: " ++ what
  | .backend what => "storage backend error: " ++ what
  | .serialization what => "serialization error: " ++ what
  | .corruption what => "database is corrupted: " ++ what

/-- There is no poll for this transaction. -/
def missingPoll (key : Hash) : StoreError := .notFound ("poll " ++ key.toHex)

/-- There is a poll for this transaction already. -/
def duplicatePoll (key : Hash) : StoreError := .duplicate ("poll " ++ key.toHex)

/-- This account has voted on this poll already. -/
def duplicateVote (poll : Hash) (voter : AccountId) : StoreError :=
  .duplicate ("vote by " ++ toString voter ++ " on poll " ++ poll.toHex)

end StoreError

/-! ## The calls -/

/-- A table of polls, each under the hash of its transaction. -/
class PollStore (σ : Type) where
  /-- Adds a poll; a duplicate if its transaction has one. -/
  insertPoll : Poll → Action σ StoreError Unit
  /-- The poll of a transaction. -/
  findPoll : Hash → Action σ StoreError (Option Poll)
  /-- Removes the poll of a transaction; answers whether there was one. -/
  deletePoll : Hash → Action σ StoreError Bool
  /-- The polls, whatever their status, that finish at a height, by hash. -/
  pollsFinishingAt : Height → Action σ StoreError (List Poll)
  /-- The polls, whatever their status, that an account submitted, by hash. -/
  pollsOf : AccountId → Action σ StoreError (List Poll)
  /-- The transactions whose polls were created at a height, ascending. -/
  pollsCreatedAt : Height → Action σ StoreError (List Hash)
  /-- Writes all these changes of status or, if a poll is missing, none of them. -/
  applyResolutions : List Resolution → Action σ StoreError Unit
  /-- The number of polls. -/
  countPolls : Action σ StoreError Nat

/-- A table of votes, one at most for each poll and voter. -/
class VoteStore (σ : Type) where
  /-- Adds a vote; a duplicate if the voter has voted on the poll, whose vote then stays. -/
  insertVote : Vote → Action σ StoreError Unit
  /-- The vote of an account on a poll. -/
  findVote : Hash → AccountId → Action σ StoreError (Option Vote)
  /-- The votes on a poll, by voter. -/
  votesOn : Hash → Action σ StoreError (List Vote)
  /-- Removes a vote; answers whether there was one. -/
  deleteVote : Hash → AccountId → Action σ StoreError Bool
  /-- Poll and voter of the votes that the block at a height contains. -/
  votesCastAt : Height → Action σ StoreError (List (Hash × AccountId))

/-! ## What follows from the calls -/

section

variable {σ : Type}

/-- The undecided polls that finish at a height, by hash. -/
def pendingFinishingAt [PollStore σ] (height : Height) : Action σ StoreError (List Poll) := do
  return (← PollStore.pollsFinishingAt height).filter Poll.isPending

/-- The undecided polls that an account submitted, by hash. -/
def pendingOf [PollStore σ] (account : AccountId) : Action σ StoreError (List Poll) := do
  return (← PollStore.pollsOf account).filter Poll.isPending

/-- The number of votes on a poll. -/
def countVotes [VoteStore σ] (poll : Hash) : Action σ StoreError Amount := do
  return UInt64.ofNat (← VoteStore.votesOn poll).length

end

end Finality
