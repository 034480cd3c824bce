import Finality.Chain.Error
import Finality.Chain.Event
import Finality.Engine.Registration
import Finality.Engine.Rollback

/-!
# Following the chain

A `Follower` drives the engine from the events of the chain.  Polls are registered and votes cast in
the block above the last one processed; then that block is applied, or the last one taken back, and
only at these two heights.  Listeners hear of a height once all of it is processed.

The first fatal error halts the follower: it keeps the height that was being processed and the text
of the error, and answers every later call with them.
-/

namespace Finality

/-- Where and why a follower halted. -/
structure Halt where
  /-- The height that was being processed. -/
  height : Height
  /-- The text of the error. -/
  reason : String
deriving DecidableEq

/-- An engine that follows the chain. -/
structure Follower (σ : Type) where
  /-- The store and the ledger. -/
  world : σ
  /-- The limits on polls. -/
  params : Params
  /-- The height of the last block processed. -/
  height : Height
  /-- Set by the first fatal error. -/
  halt : Option Halt
  /-- Whether listeners are told. -/
  emitEvents : Bool
  /-- The listeners. -/
  bus : EventBus

namespace Follower

variable {σ α : Type}

/-- A follower of a chain whose last block is at a height. -/
def start (world : σ) (params : Params) (height : Height) : Follower σ :=
  { world, params, height, halt := none, emitEvents := true, bus := .empty }

/-- An action on the store and the ledger alone. -/
def inWorld {ε : Type} (x : Action σ ε α) : Action (Follower σ) ε α :=
  x.onPart Follower.world fun world f => { f with world }

/-- Fails if the follower has halted. -/
def checkRunning : Action (Follower σ) NodeError Unit := do
  match (← get).halt with
  | some h => throw (.halted h.height h.reason)
  | none => return ()

/-- Runs an action of the engine for a height.  A fatal error halts the follower. -/
def process (height : Height) (x : Action σ EngineError α) : Action (Follower σ) NodeError α := do
  match ← (inWorld (x.mapError NodeError.engine)).outcome with
  | .ok a => return a
  | .error e => do
    if e.isFatal then
      modify fun f => { f with halt := some { height, reason := e.message } }
    throw e

section

variable [PollStore σ] [VoteStore σ] [Ledger σ]

/-- Registers the poll of a transaction in the block being applied. -/
def register (r : PollRequest) : Action (Follower σ) NodeError Poll := do
  checkRunning
  let f ← get
  process (f.height + 1) (Finality.register f.params r (f.height + 1))

/-- Casts a vote in the block being applied. -/
def castVote (poll : Hash) (voter : AccountId) : Action (Follower σ) NodeError VoteOutcome := do
  checkRunning
  let f ← get
  process (f.height + 1) (Finality.castVote poll voter (f.height + 1))

/-- The only height at which an event of this kind is accepted. -/
def expectedHeight (f : Follower σ) : ChainEvent → Height
  | .applied _ => f.height + 1
  | .poppedOff _ => f.height

/-- What an event makes of the polls, and the height at which it leaves the chain. -/
def respond : ChainEvent → Action σ EngineError (Height × List PollEvent)
  | .applied height => do
    let resolved ← resolveHeight height
    return (height, resolved.map PollEvent.ofResolved)
  | .poppedOff height => do
    let reverted ← popHeight height
    return (height - 1, reverted.map PollEvent.ofReverted)

/-- Processes an event of the chain and answers what became of polls. -/
def handle (e : ChainEvent) : Action (Follower σ) NodeError (List PollEvent) := do
  checkRunning
  let expected := (← get).expectedHeight e
  if e.height ≠ expected ∨ e.height = 0 then throw (.outOfOrder expected e.height)
  let (height, events) ← process e.height (respond e)
  modify fun f =>
    { f with height, bus := if f.emitEvents then f.bus.emitAll events else f.bus }
  return events

/-- Applies the block at a height. -/
def applyBlock (height : Height) : Action (Follower σ) NodeError (List PollEvent) :=
  handle (.applied height)

/-- Takes back the block at a height. -/
def popBlock (height : Height) : Action (Follower σ) NodeError (List PollEvent) :=
  handle (.poppedOff height)

end

end Follower

end Finality
