import Finality.Toml.Number
import Finality.Toml.Text

/-!
# Configuration texts

`readDocument` reads a text in TOML 1.0 as the table of its keys.  A text is a sequence of lines:
a line is empty or a comment, or gives a key its value, or is the heading of a table, whose keys
follow.  A key may have several parts with dots between them; a value may have several lines if it
is a string of several lines or an array.

Values are nested at most `nestingLimit` deep, and a key has at most as many parts.
-/

namespace Finality.Toml

/-- How deep arrays and tables in braces may be nested, and how many parts a key may have. -/
def nestingLimit : Nat := 79

/-! ## Blanks and comments -/

/-- A text without the blanks at its front. -/
def dropBlanks (text : List Char) : List Char := text.dropWhile isBlank

/-- A text without the blanks, ends of lines and comments at its front; `comment` tells whether it
begins inside a comment. -/
def dropSpace (comment : Bool) : List Char → List Char
  | [] => []
  | c :: rest =>
    if c = '\n' ∨ (c = '\r' ∧ rest.head? = some '\n') then dropSpace false rest
    else if comment then if isPlain c then dropSpace true rest else c :: rest
    else if isBlank c then dropSpace false rest
    else if c = '#' then dropSpace true rest
    else c :: rest

/-- A text without a comment at its front, if there is one. -/
def dropComment : List Char → List Char
  | '#' :: rest => rest.dropWhile isPlain
  | text => text

/-- What follows the rest of a line, on which only blanks and a comment may stand. -/
def endLine? (text : List Char) : Option (List Char) :=
  match dropComment (dropBlanks text) with
  | [] => some []
  | '\n' :: rest | '\r' :: '\n' :: rest => some rest
  | _ => none

/-! ## Keys -/

/-- Whether a character may belong to a key that is not quoted. -/
def isKeyChar (c : Char) : Bool := c.isAlphanum || c = '_' || c = '-'

/-- One part of a key, and the rest of the text. -/
def readKeyPart (text : List Char) : Option (String × List Char) :=
  match text with
  | '"' :: rest => (readBasic rest).map fun (s, rest) => (String.ofList s, rest)
  | '\'' :: rest => (readLiteral rest).map fun (s, rest) => (String.ofList s, rest)
  | _ =>
    let part := text.takeWhile isKeyChar
    if part.isEmpty then none else some (String.ofList part, text.dropWhile isKeyChar)

/-- The parts of a key of at most so many parts, the last one apart, and the rest of the text. -/
def readKey : (parts : Nat) → List Char → Option (List String × String × List Char)
  | 0, _ => none
  | parts + 1, text => do
    let (part, rest) ← readKeyPart (dropBlanks text)
    match dropBlanks rest with
    | '.' :: rest =>
      let (path, last, rest) ← readKey parts rest
      return (part :: path, last, rest)
    | rest => return ([], part, rest)

/-! ## Values -/

/-- Reads a value from the front of a text. -/
abbrev Reader := List Char → Option (Value × List Char)

/-- The items of an array after its opening bracket or a comma, at most so many. -/
def readItems (item : Reader) : (count : Nat) → List Char → Option (List Value × List Char)
  | 0, _ => none
  | count + 1, text =>
    match dropSpace false text with
    | ']' :: rest => some ([], rest)
    | text => do
      let (v, rest) ← item text
      match dropSpace false rest with
      | ',' :: rest =>
        let (vs, rest) ← readItems item count rest
        return (v :: vs, rest)
      | ']' :: rest => return ([v], rest)
      | _ => none

/-- A key with its value: the key's parts, the value, and the rest of the text. -/
def readPair (value : Reader) (text : List Char) :
    Option (List String × String × Value × List Char) := do
  let (path, key, rest) ← readKey nestingLimit text
  match rest with
  | '=' :: rest =>
    let (v, rest) ← value (dropBlanks rest)
    return (path, key, v, rest)
  | _ => none

/-- The pairs of a table in braces, at most so many, added to those before them. -/
def readPairs (value : Reader) :
    (count : Nat) → Entries → List Char → Option (Entries × List Char)
  | 0, _, _ => none
  | count + 1, es, text => do
    let (path, key, v, rest) ← readPair value text
    let es ← es.define path key v
    match dropBlanks rest with
    | ',' :: rest => readPairs value count es rest
    | '\x7d' :: rest => return (es, rest)
    | _ => none

/-- The string at the front of a text, as a value, and the rest. -/
def readText (text : List Char) : Option (Value × List Char) :=
  (readString text).map fun (s, rest) => (.string (String.ofList s), rest)

/-- Reads a value in which arrays and tables in braces are nested at most so deep. -/
def readValue : (depth : Nat) → Reader
  | 0, text =>
    match text with
    | '"' :: _ | '\'' :: _ => readText text
    | _ => readWord text
  | depth + 1, text =>
    match text with
    | '"' :: _ | '\'' :: _ => readText text
    | '[' :: rest =>
      (readItems (readValue depth) text.length rest).map fun (vs, rest) => (.array vs, rest)
    | '\x7b' :: rest =>
      match dropBlanks rest with
      | '\x7d' :: rest => some (.table .inline [], rest)
      | rest =>
        (readPairs (readValue depth) text.length [] rest).map fun (es, rest) =>
          (.table .inline es, rest)
    | _ => readWord text

/-! ## Documents -/

/-- What the lines read so far say. -/
structure Draft where
  /-- The table of the whole document. -/
  root : Entries
  /-- The heading under which the next keys stand. -/
  heading : List String

namespace Draft

/-- Gives a key its value, under the present heading. -/
def define (d : Draft) (path : List String) (key : String) (v : Value) : Option Draft := do
  let root ← Entries.alter .implied (fun _ es => es.define path key v) d.heading .headed d.root
  return { d with root }

/-- Opens a table by a heading: `place` finds room for it among the keys around it. -/
def enter (d : Draft) (place : String → Entries → Option Entries) (path : List String)
    (key : String) : Option Draft := do
  let root ← Entries.alter .implied (fun _ es => place key es) path .headed d.root
  return { root, heading := path ++ [key] }

end Draft

/-- The heading after its opening brackets: its parts, and what follows the line.  The heading
ends with the given brackets. -/
def readHeading (closing : List Char) (text : List Char) :
    Option (List String × String × List Char) := do
  let (path, key, rest) ← readKey nestingLimit text
  if closing.isPrefixOf rest then
    let rest ← endLine? (rest.drop closing.length)
    return (path, key, rest)
  else none

/-- Reads one line that is not empty, and answers what follows it. -/
def readLine (d : Draft) (text : List Char) : Option (Draft × List Char) := do
  match text with
  | '[' :: '[' :: rest =>
    let (path, key, rest) ← readHeading [']', ']'] rest
    return (← d.enter Entries.openItem path key, rest)
  | '[' :: rest =>
    let (path, key, rest) ← readHeading [']'] rest
    return (← d.enter Entries.openTable path key, rest)
  | _ =>
    let (path, key, v, rest) ← readPair (readValue nestingLimit) text
    return (← d.define path key v, ← endLine? rest)

/-- Reads lines to the end of the text, at most so many. -/
def readLines : (count : Nat) → Draft → List Char → Option Draft
  | 0, _, _ => none
  | count + 1, d, text =>
    match dropBlanks text with
    | [] => some d
    | text =>
      match endLine? text with
      | some rest => readLines count d rest
      | none => do
        let (d, rest) ← readLine d text
        readLines count d rest

/-- The table that a text says; `none` if it is not well formed. -/
def readDocument (text : String) : Option Entries :=
  let text :=
    match text.toList with
    | '\ufeff' :: rest => rest
    | text => text
  (readLines (text.length + 1) { root := [], heading := [] } text).map Draft.root

end Finality.Toml
