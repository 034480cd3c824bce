import Finality.Engine.Resolution

/-!
# Events

The chain tells the node about blocks (`ChainEvent`), and the node tells its listeners what became
of polls (`PollEvent`).  An `EventBus` passes every poll event to every listener, and is modelled by
what they have heard.
-/

namespace Finality

/-! ## Events of the chain -/

/-- A block that is applied or taken back. -/
inductive ChainEvent where
  /-- The block at a height is applied: the chain now ends there. -/
  | applied (height : Height)
  /-- The block at a height is taken back: the chain now ends below it. -/
  | poppedOff (height : Height)
deriving DecidableEq

namespace ChainEvent

/-- The height of the block. -/
def height : ChainEvent → Height
  | .applied height | .poppedOff height => height

/-- The event in messages. -/
def describe : ChainEvent → String
  | .applied height => "BlockApplied \x7b height: " ++ toString height ++ " \x7d"
  | .poppedOff height => "BlockPoppedOff \x7b height: " ++ toString height ++ " \x7d"

end ChainEvent

/-! ## Events of polls -/

/-- What became of a poll when a height was processed. -/
inductive PollEvent where
  /-- The poll was approved and its transaction released. -/
  | approved (poll : Hash) (account : AccountId) (tally : Amount) (height : Height)
  /-- The poll was rejected. -/
  | rejected (poll : Hash) (account : AccountId) (tally : Amount) (height : Height)
  /-- The poll's resolution was undone because its block was taken back. -/
  | reverted (poll : Hash) (account : AccountId) (previous : PollStatus) (height : Height)
deriving DecidableEq

namespace PollEvent

/-- The event of a resolution. -/
def ofResolved (r : ResolvedPoll) : PollEvent :=
  match r.status with
  | .approved => .approved r.key r.account r.tally r.height
  | _ => .rejected r.key r.account r.tally r.height

/-- The event of an undone resolution. -/
def ofReverted (r : ResolvedPoll) : PollEvent := .reverted r.key r.account r.status r.height

/-- The poll that the event is about. -/
def poll : PollEvent → Hash
  | .approved poll .. | .rejected poll .. | .reverted poll .. => poll

end PollEvent

/-! ## Listeners -/

/-- Listeners, numbered in the order in which they subscribed, and what they have heard. -/
structure EventBus where
  /-- How many listeners there are. -/
  listeners : Nat
  /-- Who heard what, in order. -/
  heard : List (Nat × PollEvent)
deriving DecidableEq, Inhabited

namespace EventBus

/-- The bus that nobody listens to. -/
def empty : EventBus := ⟨0, []⟩

/-- One listener more, whose number is the count of those before it. -/
def subscribe (bus : EventBus) : EventBus := { bus with listeners := bus.listeners + 1 }

/-- Every listener hears an event. -/
def emit (bus : EventBus) (e : PollEvent) : EventBus :=
  { bus with heard := bus.heard ++ (List.range bus.listeners).map fun i => (i, e) }

/-- Every listener hears some events, one after another. -/
def emitAll (bus : EventBus) (es : List PollEvent) : EventBus := es.foldl emit bus

/-- What one listener has heard. -/
def heardBy (bus : EventBus) (listener : Nat) : List PollEvent :=
  (bus.heard.filter fun e => e.1 = listener).map (·.2)

/-- Forgets what was heard so far. -/
def forget (bus : EventBus) : EventBus := { bus with heard := [] }

end EventBus

end Finality
