import Finality.Bytes
import Finality.Table

/-!
# Scanning the keys with a common beginning

The entries of a sorted table whose keys start with given bytes lie together: they are those from
these bytes on up to the least byte string above all that start with them.  That bound drops the
trailing bytes 255 and adds one to the last byte left; if no byte is left, there is none.
-/

namespace Finality

/-- The least byte string above every one that starts with the given bytes. -/
def upperBound? : Bytes → Option Bytes
  | [] => none
  | b :: rest =>
    match upperBound? rest with
    | some upper => some (b :: upper)
    | none => if b = 255 then none else some [b + 1]

/-- Whether a key lies at or above `start` and below the bound of those that start with it. -/
def inScanRange (start key : Bytes) : Bool :=
  (compare start key).isLE &&
    match upperBound? start with
    | some upper => compare key upper = .lt
    | none => true

/-- The entries whose keys start with the given bytes, ascending. -/
def Table.scan {ν : Type} (t : Table Bytes ν) (start : Bytes) : List (Bytes × ν) :=
  t.entries.filter fun e => inScanRange start e.1

end Finality
