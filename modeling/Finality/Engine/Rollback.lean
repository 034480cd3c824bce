import Finality.Engine.Resolution

/-!
# Taking a block back

When the chain drops its last block, `popHeight` undoes the resolutions made at that height and
removes the votes and the polls that the block contained.  A poll of that block finishes at a
greater height, so it must be undecided; that is checked before anything is changed.  If removing
votes or polls fails, the undone resolutions are restored.
-/

namespace Finality

variable {σ : Type}

/-- Fails if one of these polls, created at a height, is decided. -/
def checkUndecided [PollStore σ] (height : Height) (keys : List Hash) :
    Action σ EngineError Unit :=
  keys.forM fun key => do
    match ← inStore (PollStore.findPoll key) with
    | none => return ()
    | some p => if !p.isPending then throw (.consistency (.rollbackOfResolved key height))

/-- The transactions whose polls the block at a height created, none of them decided. -/
def checkRollbackAt [PollStore σ] (height : Height) : Action σ EngineError (List Hash) := do
  let keys ← inStore (PollStore.pollsCreatedAt height)
  checkUndecided height keys
  return keys

/-- Removes the polls that the block at a height created, and answers how many there were. -/
def rollbackRegistrationsAt [PollStore σ] (height : Height) : Action σ EngineError Nat := do
  let keys ← checkRollbackAt height
  keys.forM fun key => do
    let _ ← inStore (PollStore.deletePoll key)
  return keys.length

/-- Removes the votes and then the polls that the block at a height contains. -/
def dropContents [PollStore σ] [VoteStore σ] (height : Height) : Action σ EngineError Unit := do
  let _ ← rollbackVotesAt height
  let _ ← rollbackRegistrationsAt height

/-- Takes back the block at a height, and answers the resolutions that were undone. -/
def popHeight [PollStore σ] [VoteStore σ] [Ledger σ] (height : Height) :
    Action σ EngineError (List ResolvedPoll) := do
  let _ ← checkRollbackAt height
  let reverted ← undoHeight height
  match ← (dropContents height).outcome with
  | .ok () => return reverted
  | .error e => do
    let _ ← (restore reverted).outcome
    throw e

end Finality
