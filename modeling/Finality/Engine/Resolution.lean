import Finality.Engine.Decision
import Finality.Sorted

/-!
# Resolving a height, and undoing it

When a block is applied, the polls that finish at its height are resolved: they are decided, the
approved transactions are released in ascending order, and the new statuses are written in one
batch.  When the block is taken back, `undoHeight` does the opposite: it undoes the releases in
descending order and sets the polls back to pending.  `restore` undoes the undoing.

Each of the three takes back what it has done if a later step fails (`allOrNone`, `compensate`).
Taking back may fail too; such failures are passed over, for there is nothing left to try.
-/

namespace Finality

/-- A poll whose status changed at a height: it was resolved, or its resolution undone. -/
structure ResolvedPoll where
  /-- The poll. -/
  key : Hash
  /-- The account that submitted the transaction. -/
  account : AccountId
  /-- The status it was resolved to; after an undo, the status it had. -/
  status : PollStatus
  /-- The tally that goes with the status. -/
  tally : Amount
  /-- The height. -/
  height : Height
deriving DecidableEq, Inhabited

namespace ResolvedPoll

/-- The change that writes this status and tally. -/
def toResolution (r : ResolvedPoll) : Resolution := ⟨r.key, r.status, r.tally⟩

/-- A poll at a height, with its stored status. -/
def ofPoll (height : Height) (p : Poll) : ResolvedPoll :=
  ⟨p.key, p.account, p.status, p.tally, height⟩

end ResolvedPoll

/-- The change that sets a poll back to pending. -/
def Poll.reset (p : Poll) : Resolution := ⟨p.key, .pending, 0⟩

namespace Outcomes

/-- The transactions to be released, ascending. -/
def approved (outcomes : Outcomes) : List Hash :=
  (outcomes.entries.filter fun e => e.2.status = .approved).map (·.1)

/-- The changes of status to be written, by hash. -/
def resolutions (outcomes : Outcomes) : List Resolution :=
  outcomes.entries.map fun e => ⟨e.1, e.2.status, e.2.tally⟩

/-- The polls with their outcomes, by hash. -/
def resolved (outcomes : Outcomes) (polls : List Poll) (height : Height) : List ResolvedPoll :=
  sortBy (compareOn ResolvedPoll.key) <| polls.filterMap fun p =>
    (outcomes.find? p.key).map fun o => ⟨p.key, p.account, o.status, o.tally, height⟩

end Outcomes

variable {σ : Type}

/-! ## Steps that are taken back -/

/-- Takes back steps by their inverse, whether or not that succeeds. -/
def compensate (inverse : Hash → Action σ LedgerError Unit) (keys : List Hash) :
    Action σ EngineError Unit :=
  keys.forM fun key => do
    let _ ← (inverse key).outcome

/-- Takes a step for each transaction in turn.  If one fails, the steps already taken, whose
transactions `done` lists with the latest first, are taken back, and the error is reported. -/
def allOrNone (step inverse : Hash → Action σ LedgerError Unit) :
    (done todo : List Hash) → Action σ EngineError Unit
  | _, [] => return ()
  | done, key :: todo => do
    match ← (step key).outcome with
    | .ok () => allOrNone step inverse (key :: done) todo
    | .error e => do
      compensate inverse done
      throw (.ledger e)

/-- Releases transactions in order; if one fails, those before it are undone. -/
def releaseAll [Ledger σ] (keys : List Hash) : Action σ EngineError Unit :=
  allOrNone Ledger.applyRelease Ledger.undoRelease [] keys

/-- Undoes releases in order; if one fails, those before it are released again. -/
def undoAll [Ledger σ] (keys : List Hash) : Action σ EngineError Unit :=
  allOrNone Ledger.undoRelease Ledger.applyRelease [] keys

/-- Writes changes of status; if that fails, `takeBack` runs before the error is reported. -/
def writeOrElse [PollStore σ] (rs : List Resolution) (takeBack : Action σ EngineError Unit) :
    Action σ EngineError Unit := do
  match ← (PollStore.applyResolutions rs).outcome with
  | .ok () => return ()
  | .error e => do
    takeBack
    throw (.store e)

/-! ## Resolving and undoing -/

/-- Resolves the polls that finish at a height and answers them by hash.  They must all be
undecided. -/
def resolveHeight [PollStore σ] [VoteStore σ] [Ledger σ] (height : Height) :
    Action σ EngineError (List ResolvedPoll) := do
  let polls ← inStore (PollStore.pollsFinishingAt height)
  match polls.find? fun p => !p.isPending with
  | some p => throw (.consistency (.doubleResolution p.key height))
  | none =>
    if polls.isEmpty then return []
    let outcomes ← decidePolls polls height
    let approved := outcomes.approved
    releaseAll approved
    writeOrElse outcomes.resolutions (compensate Ledger.undoRelease approved.reverse)
    return outcomes.resolved polls height

/-- Undoes the resolutions made at a height and answers them as they were, in descending order. -/
def undoHeight [PollStore σ] [Ledger σ] (height : Height) :
    Action σ EngineError (List ResolvedPoll) := do
  let polls ← inStore (PollStore.pollsFinishingAt height)
  let resolved := polls.filter fun p => p.status.isResolved
  if resolved.isEmpty then return []
  let resolved := sortBy (fun p q => compare q.key p.key) resolved
  let approved := (resolved.filter fun p => p.status = .approved).map Poll.key
  undoAll approved
  writeOrElse (resolved.map Poll.reset) (compensate Ledger.applyRelease approved.reverse)
  return resolved.map (ResolvedPoll.ofPoll height)

/-- Puts back resolutions that `undoHeight` has answered. -/
def restore [PollStore σ] [Ledger σ] (reverted : List ResolvedPoll) :
    Action σ EngineError Unit := do
  let approved := sortBy compare <|
    (reverted.filter fun r => r.status = .approved).map ResolvedPoll.key
  releaseAll approved
  writeOrElse (reverted.map ResolvedPoll.toResolution)
    (compensate Ledger.undoRelease approved.reverse)

end Finality
