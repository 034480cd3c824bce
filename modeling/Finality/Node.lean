import Finality.Chain.Follower
import Finality.Config
import Finality.Ledger.Simulated
import Finality.Store.Durable
import Finality.World

/-!
# Nodes

A node is a follower of the chain over a durable store, set up by a configuration.  Opening one
validates the configuration and the tables first.  `advance` and `retreat` feed a follower with the
blocks up to a height, or take blocks back down to it, and stop at the first error.
-/

namespace Finality

/-- A node over a ledger, at a height of the chain: its tables as they were left, marked with the
current version. -/
def openNode {L : Type} (config : Config) (tables : Database) (ledger : L) (height : Height) :
    Except NodeError (Follower (World Database L)) := do
  config.validate
  let store ← tables.opened.mapError NodeError.database
  return { Follower.start { store, ledger } config.params height with
    emitEvents := config.emitEvents }

/-- What a series of blocks brought: events, and the error that ended it early, if one did. -/
structure Series where
  /-- The events, in order. -/
  events : List PollEvent
  /-- The error at which the series stopped. -/
  error : Option NodeError
deriving DecidableEq

namespace Follower

variable {σ : Type} [PollStore σ] [VoteStore σ] [Ledger σ]

/-- Applies so many blocks.  `before` runs ahead of each, with its height. -/
def applyBlocks (before : Height → Follower σ → Follower σ) :
    Nat → Follower σ → Series × Follower σ
  | 0, f => ({ events := [], error := none }, f)
  | blocks + 1, f =>
    let height := f.height + 1
    match (applyBlock height).start (before height f) with
    | (.error e, f) => ({ events := [], error := some e }, f)
    | (.ok events, f) =>
      match applyBlocks before blocks f with
      | (s, f) => ({ s with events := events ++ s.events }, f)

/-- Takes back so many blocks.  `after` runs behind each, with the height that is left. -/
def popBlocks (after : Height → Follower σ → Follower σ) :
    Nat → Follower σ → Series × Follower σ
  | 0, f => ({ events := [], error := none }, f)
  | blocks + 1, f =>
    match (popBlock f.height).start f with
    | (.error e, f) => ({ events := [], error := some e }, f)
    | (.ok events, f) =>
      match popBlocks after blocks (after f.height f) with
      | (s, f) => ({ s with events := events ++ s.events }, f)

/-- Applies the blocks above the last one up to a height. -/
def advance (before : Height → Follower σ → Follower σ) (target : Height) (f : Follower σ) :
    Series × Follower σ :=
  f.applyBlocks before (target.toNat - f.height.toNat)

/-- Takes back the blocks above a height. -/
def retreat (after : Height → Follower σ → Follower σ) (target : Height) (f : Follower σ) :
    Series × Follower σ :=
  f.popBlocks after (f.height.toNat - target.toNat)

/-- Moves the tip of a simulated ledger. -/
def setTip {S : Type} (height : Height) (f : Follower (World S SimulatedLedger)) :
    Follower (World S SimulatedLedger) :=
  { f with world := { f.world with ledger := f.world.ledger.setTip height } }

end Follower

end Finality
