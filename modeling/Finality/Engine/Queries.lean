import Finality.Engine.Voting

/-!
# Reading the engine's state

The questions that the rest of the node may ask the engine.
-/

namespace Finality.Query

variable {σ : Type}

/-- The poll of a transaction. -/
def poll [PollStore σ] (key : Hash) : Action σ EngineError (Option Poll) :=
  inStore (PollStore.findPoll key)

/-- The votes on a poll, by voter; none for an unknown poll. -/
def votes [VoteStore σ] (key : Hash) : Action σ EngineError (List Vote) :=
  inStore (VoteStore.votesOn key)

/-- The undecided polls that an account submitted. -/
def pendingByAccount [PollStore σ] (account : AccountId) : Action σ EngineError (List Poll) :=
  inStore (pendingOf account)

/-- The undecided polls that finish at a height. -/
def pendingByFinishHeight [PollStore σ] (height : Height) : Action σ EngineError (List Poll) :=
  inStore (pendingFinishingAt height)

/-- The number of polls. -/
def pollCount [PollStore σ] : Action σ EngineError Nat := inStore PollStore.countPolls

end Finality.Query
