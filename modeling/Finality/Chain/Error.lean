import Finality.Engine.Error
import Finality.Store.Durable

/-!
# What can go wrong in the node
-/

namespace Finality

/-- Why the node refuses a call or stops. -/
inductive NodeError where
  /-- The engine failed. -/
  | engine (e : EngineError)
  /-- The store failed outside the engine. -/
  | store (e : StoreError)
  /-- The tables of the store cannot be opened. -/
  | database (e : DatabaseError)
  /-- The configuration cannot be read or used. -/
  | config (what : String)
  /-- The file system failed. -/
  | io (what : String)
  /-- A block came at another height than the next one. -/
  | outOfOrder (expected got : Height)
  /-- An earlier fatal error stopped the node. -/
  | halted (height : Height) (reason : String)
deriving DecidableEq

namespace NodeError

/-- The wording of a node error. -/
def message : NodeError → String
  | .engine e => "phasing error: " ++ e.message
  | .store e => "store error: " ++ e.message
  | .database e => "LMDB error: " ++ e.message
  | .config what => "config error: " ++ what
  | .io what => "IO error: " ++ what
  | .outOfOrder expected got =>
    "out of order chain event: expected height " ++ toString expected ++ ", got " ++ toString got
  | .halted height reason =>
    "phasing halted at height " ++ toString height ++ ": " ++ reason

/-- Whether the node must stop processing blocks. -/
def isFatal : NodeError → Bool
  | .engine e => e.isFatal
  | .outOfOrder .. | .config _ => false
  | _ => true

end NodeError

end Finality
