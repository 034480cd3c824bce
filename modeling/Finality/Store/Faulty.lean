import Finality.Store.Interface

/-!
# Stores whose calls may fail

`Faulty φ S` is a store `S` behind a *source of faults* `φ`: before each call the source is asked
whether this call fails and with what error, and a call that fails does not reach the store.  Any
pattern of failures is some source of faults; `FaultPlan` is the one that lets some calls of a kind
pass, fails the next few, and lets the later ones pass.
-/

namespace Finality

/-- The calls of a store of polls and votes. -/
inductive StoreCall where
  | insertPoll | findPoll | deletePoll | pollsFinishingAt | pollsOf | pollsCreatedAt
  | applyResolutions | countPolls
  | insertVote | findVote | votesOn | deleteVote | votesCastAt
deriving DecidableEq

/-- Something that decides, call by call, which calls of a store fail. -/
class FaultSource (φ : Type) where
  /-- The error with which the next call fails, if it does, and the source after that call. -/
  next : StoreCall → φ → Option StoreError × φ

/-- A store behind a source of faults. -/
structure Faulty (φ S : Type) where
  /-- Decides which calls fail. -/
  faults : φ
  /-- The store behind. -/
  store : S
deriving Inhabited

namespace Faulty

variable {φ S α : Type}

/-- A call of the store, if the source lets it pass. -/
def call [FaultSource φ] (c : StoreCall) (x : Action S StoreError α) :
    Action (Faulty φ S) StoreError α :=
  Action.ofFunction fun s =>
    match FaultSource.next c s.faults with
    | (some e, faults) => (.error e, { s with faults })
    | (none, faults) =>
      match x.start s.store with
      | (r, store) => (r, { faults, store })

instance [FaultSource φ] [PollStore S] : PollStore (Faulty φ S) where
  insertPoll p := call .insertPoll (PollStore.insertPoll p)
  findPoll key := call .findPoll (PollStore.findPoll key)
  deletePoll key := call .deletePoll (PollStore.deletePoll key)
  pollsFinishingAt height := call .pollsFinishingAt (PollStore.pollsFinishingAt height)
  pollsOf account := call .pollsOf (PollStore.pollsOf account)
  pollsCreatedAt height := call .pollsCreatedAt (PollStore.pollsCreatedAt height)
  applyResolutions rs := call .applyResolutions (PollStore.applyResolutions rs)
  countPolls := call .countPolls PollStore.countPolls

instance [FaultSource φ] [VoteStore S] : VoteStore (Faulty φ S) where
  insertVote v := call .insertVote (VoteStore.insertVote v)
  findVote poll voter := call .findVote (VoteStore.findVote poll voter)
  votesOn poll := call .votesOn (VoteStore.votesOn poll)
  deleteVote poll voter := call .deleteVote (VoteStore.deleteVote poll voter)
  votesCastAt height := call .votesCastAt (VoteStore.votesCastAt height)

end Faulty

/-! ## Planned faults -/

/-- Some calls that pass, then some that fail. -/
structure Fault where
  /-- How many calls pass. -/
  passes : Nat
  /-- How many calls after those fail. -/
  failures : Nat
  /-- The error they fail with. -/
  error : StoreError
deriving DecidableEq

/-- Whether the next call fails, and the fault that is left after it. -/
def Fault.next (f : Fault) : Option StoreError × Fault :=
  if 0 < f.passes then (none, { f with passes := f.passes - 1 })
  else if 0 < f.failures then (some f.error, { f with failures := f.failures - 1 })
  else (none, f)

/-- At most one fault for each kind of call. -/
abbrev FaultPlan := List (StoreCall × Fault)

namespace FaultPlan

/-- Plans a fault for a kind of call, in place of the one planned before. -/
def set (plan : FaultPlan) (c : StoreCall) (f : Fault) : FaultPlan :=
  (c, f) :: plan.filter fun e => e.1 ≠ c

instance : FaultSource FaultPlan where
  next c plan :=
    match plan.lookup c with
    | none => (none, plan)
    | some f => (f.next.1, set plan c f.next.2)

end FaultPlan

end Finality
