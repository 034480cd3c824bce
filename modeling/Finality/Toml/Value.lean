/-!
# Values of a configuration text

What a TOML text says: strings, numbers, truth values, dates, arrays and tables.  A table remembers
how it came to be (`TableKind`), because that decides which later lines may add to it.  The place
of every other value in the text is forgotten.
-/

namespace Finality.Toml

/-- How a table came to be. -/
inductive TableKind where
  /-- It stands between the heading of a table and the document; its own heading may follow. -/
  | implied
  /-- It was made by a key with dots; further such keys may add to it. -/
  | dotted
  /-- It has a heading of its own. -/
  | headed
  /-- It is written between braces, and complete. -/
  | inline
deriving DecidableEq

/-- A value. -/
inductive Value where
  | string (s : String)
  | integer (n : Int)
  | float (text : String)
  | boolean (b : Bool)
  | datetime (text : String)
  /-- An array of values between brackets. -/
  | array (items : List Value)
  /-- A table. -/
  | table (kind : TableKind) (entries : List (String × Value))
  /-- Tables under one heading in double brackets. -/
  | tables (items : List (List (String × Value)))

/-- The keys of a table with their values, in the order they came in. -/
abbrev Entries := List (String × Value)

namespace Entries

/-- Another value in place of the one under a key. -/
def replace (es : Entries) (key : String) (v : Value) : Entries :=
  es.map fun e => if e.1 = key then (key, v) else e

/-- Changes the table that a path of keys leads to, beginning in a table of a given kind.  Tables
that are missing on the way are made, of the kind `made`; a key that leads to tables under one
heading leads to the last of them.  Values that are no tables lead nowhere, neither do tables
between braces and, for the parts of a key with dots, tables with a heading. -/
def alter (made : TableKind) (change : TableKind → Entries → Option Entries) :
    (path : List String) → TableKind → Entries → Option Entries
  | [], kind, es => change kind es
  | key :: path, _, es =>
    match es.lookup key with
    | none => do
      let sub ← alter made change path made []
      return es ++ [(key, .table made sub)]
    | some (.table kind sub) =>
      if kind = .inline ∨ (made = .dotted ∧ kind = .headed) then none
      else do
        let sub ← alter made change path kind sub
        return es.replace key (.table kind sub)
    | some (.tables items) =>
      match items.getLast? with
      | none => none
      | some last => do
        let last ← alter made change path .headed last
        return es.replace key (.tables (items.dropLast ++ [last]))
    | some _ => none

/-- Adds a value under a key with dots.  The key must be new, and its last part must stand in a
table made by such a key, or have nothing before it. -/
def define (path : List String) (key : String) (v : Value) (es : Entries) : Option Entries :=
  alter .dotted
    (fun kind sub =>
      if (path.isEmpty ∨ kind = .dotted) ∧ (sub.lookup key).isNone then some (sub ++ [(key, v)])
      else none)
    path .headed es

/-- Opens the table under a heading.  It must be new, or have stood only between other headings and
the document. -/
def openTable (key : String) (es : Entries) : Option Entries :=
  match es.lookup key with
  | none => some (es ++ [(key, .table .headed [])])
  | some (.table .implied sub) => some (es.replace key (.table .headed sub))
  | some _ => none

/-- Opens one more table under a heading in double brackets. -/
def openItem (key : String) (es : Entries) : Option Entries :=
  match es.lookup key with
  | none => some (es ++ [(key, .tables [[]])])
  | some (.tables items) => some (es.replace key (.tables (items ++ [[]])))
  | some _ => none

end Entries

end Finality.Toml
