import Finality.Account

/-!
# Consensus constants

The limits that every node of a network must agree on.
-/

namespace Finality

/-- The limits on polls. -/
structure Params where
  /-- How far above the current height a poll may finish. -/
  maxFinishHorizon : UInt64
  /-- How many accounts a whitelist may have. -/
  maxWhitelistSize : UInt64
  /-- How many transactions a poll may link to. -/
  maxLinks : UInt64
deriving DecidableEq

namespace Params

/-- Blocks in a day, at one a minute. -/
def blocksPerDay : UInt64 := 1440

/-- The limits used unless others are configured: two weeks, ten accounts, ten links. -/
def standard : Params := ⟨14 * blocksPerDay, 10, 10⟩

instance : Inhabited Params := ⟨standard⟩

end Params

end Finality
