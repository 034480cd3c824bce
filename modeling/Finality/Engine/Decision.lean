import Finality.Engine.Voting
import Finality.Table

/-!
# Deciding the polls of a height

`decidePolls` finds the outcome of every poll that finishes at a height.  A poll with votes of its
own is approved when its votes, counted or weighed, reach its quorum.  A poll decided by links is
approved when every transaction it links to is: one that finished earlier by its stored status, one
that finishes at this height by its outcome here.

The latter are found by going through the linked polls again and again until a pass decides none of
them.  What is then left depends on itself through a circle of links, and is rejected.  A pass that
decides something leaves fewer polls undecided, so there is at most one pass more than there are
linked polls, which is the number that `settleLinked` is given.
-/

namespace Finality

/-- What a poll is decided to be. -/
structure Outcome where
  /-- Approved or rejected. -/
  status : PollStatus
  /-- The weight counted, or the number of votes. -/
  tally : Amount
deriving DecidableEq, Inhabited

/-- The outcomes found, each under its poll. -/
abbrev Outcomes := Table Hash Outcome

/-- How far the decision of the linked polls has come. -/
structure Progress where
  /-- The outcomes found. -/
  outcomes : Outcomes
  /-- The linked polls without an outcome. -/
  undecided : Table Hash Unit
deriving DecidableEq

namespace Progress

/-- One more linked poll has its outcome. -/
def settle (key : Hash) (o : Outcome) (s : Progress) : Progress :=
  { outcomes := s.outcomes.insert key o, undecided := s.undecided.erase key }

end Progress

/-- What a link says, as far as outcomes are known. -/
inductive LinkState where
  /-- The linked transaction is approved. -/
  | approved
  /-- It is not, and will not be at this height. -/
  | notApproved
  /-- Its poll finishes at this height and has no outcome yet. -/
  | undecided
deriving DecidableEq

variable {σ : Type} [PollStore σ] [VoteStore σ]

/-! ## Polls with votes of their own -/

/-- The outcome of a poll that is not decided by links: votes are counted where each counts one,
and weighed otherwise. -/
def decideByVotes (p : Poll) : Action σ EngineError Outcome := do
  let votes ← inStore (VoteStore.votesOn p.key)
  let tally ←
    match p.model with
    | .none | .account => pure (UInt64.ofNat votes.length)
    | _ => sumVotes p.key votes
  match p.quorum with
  | none => throw (.consistency (.malformedPoll p.key))
  | some quorum => return { status := if quorum ≤ tally then .approved else .rejected, tally }

/-- The outcomes of these polls, decided one after another. -/
def decideAllByVotes (polls : List Poll) : Action σ EngineError Outcomes :=
  polls.foldlM (fun outcomes p => do return outcomes.insert p.key (← decideByVotes p)) ∅

/-! ## Polls decided by links -/

/-- What one link of a poll says at a height.  A linked poll that finishes later is not approved
at this height; one that finished earlier must be decided. -/
def linkState (p : Poll) (height : Height) (s : Progress) (link : Hash) :
    Action σ EngineError LinkState := do
  match s.outcomes.find? link with
  | some o => return if o.status = .approved then .approved else .notApproved
  | none =>
    if s.undecided.contains link then return .undecided
    match ← inStore (PollStore.findPoll link) with
    | none => throw (.consistency (.missingLinkedPoll p.key link))
    | some q =>
      match q.status with
      | .approved => return .approved
      | .rejected => return .notApproved
      | .pending =>
        if q.finishHeight < height then
          throw (.consistency (.stalePending link q.finishHeight height))
        return .notApproved

/-- The verdict of a poll's links: rejected at the first that is not approved, approved if all are,
and open if the undecided ones may still make a difference. -/
def judgeLinks (p : Poll) (height : Height) (s : Progress) :
    List Hash → Action σ EngineError (Option PollStatus)
  | [] => return some .approved
  | link :: rest => do
    match ← linkState p height s link with
    | .approved => judgeLinks p height s rest
    | .notApproved => return some .rejected
    | .undecided =>
      match ← judgeLinks p height s rest with
      | some .rejected => return some .rejected
      | _ => return none

/-- Decides a linked poll if it has no outcome yet and its links allow a verdict. -/
def visitLinked (height : Height) (s : Progress) (p : Poll) : Action σ EngineError Progress := do
  if !s.undecided.contains p.key then return s
  match ← judgeLinks p height s p.links with
  | none => return s
  | some status =>
    let tally ← inStore (countVotes p.key)
    return s.settle p.key { status, tally }

/-- One pass over the linked polls. -/
def passLinked (height : Height) (linked : List Poll) (s : Progress) :
    Action σ EngineError Progress :=
  linked.foldlM (visitLinked height) s

/-- Passes over the linked polls until one decides nothing, at most so many. -/
def settleLinked (height : Height) (linked : List Poll) :
    (passes : Nat) → Progress → Action σ EngineError Progress
  | 0, s => return s
  | passes + 1, s => do
    let s' ← passLinked height linked s
    if s'.undecided.size = s.undecided.size then return s'
    settleLinked height linked passes s'

/-- Rejects the polls that are left, in ascending order. -/
def rejectUndecided (s : Progress) : Action σ EngineError Outcomes :=
  s.undecided.keys.foldlM
    (fun outcomes key => do
      let tally ← inStore (countVotes key)
      return outcomes.insert key { status := .rejected, tally })
    s.outcomes

/-! ## All polls of a height -/

/-- The outcome of every poll in a list, all undecided and finishing at a height. -/
def decidePolls (polls : List Poll) (height : Height) : Action σ EngineError Outcomes := do
  let linked := polls.filter Poll.isLinked
  let outcomes ← decideAllByVotes (polls.filter fun p => !p.isLinked)
  let undecided := linked.foldl (fun t p => t.insert p.key ()) ∅
  let s ← settleLinked height linked (linked.length + 1) { outcomes, undecided }
  rejectUndecided s

end Finality
