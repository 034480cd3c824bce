import Finality.Bytes

/-!
# Strings in a configuration text

A string is written in one of four ways: between double quotes, with escapes; between single quotes,
as it is; and either way between three quotes, where it may have several lines.

* `readString` reads a string in any of them from the front of a text.
* `writeString` writes a string in the first form that holds it: plainly between double quotes, as
  it is between single quotes, the same between three quotes, and with escapes if all else fails.

A character is *plain* if a string may contain it as it is: every one but the control characters,
of which only the tab is plain.
-/

namespace Finality.Toml

/-- Whether a character is a blank within a line. -/
def isBlank (c : Char) : Bool := c = ' ' || c = '\t'

/-- Whether a character may stand in a text as it is. -/
def isPlain (c : Char) : Bool := c = '\t' || (0x20 ≤ c.toNat && c.toNat ≠ 0x7f)

/-- Whether a text begins with the end of a line. -/
def startsLine : List Char → Bool
  | '\n' :: _ | '\r' :: '\n' :: _ => true
  | _ => false

/-! ## Reading -/

/-- What was read of a string, and the rest of the text. -/
abbrev ReadResult := Option (List Char × List Char)

/-- One more character in front of what was read. -/
def ReadResult.push (c : Char) (r : ReadResult) : ReadResult :=
  r.map fun (cs, rest) => (c :: cs, rest)

/-- The character that a letter after a backslash stands for. -/
def escaped? (c : Char) : Option Char :=
  if c = 'b' then some '\x08'
  else if c = 't' then some '\t'
  else if c = 'n' then some '\n'
  else if c = 'f' then some '\x0c'
  else if c = 'r' then some '\r'
  else if c = '"' then some '"'
  else if c = '\\' then some '\\'
  else none

/-- The character with this hexadecimal number, if it is the number of one. -/
def numbered? (digits : List Char) : Option Char := do
  let values ← digits.mapM Bytes.hexValue?
  let n := values.foldl (fun n d => 16 * n + d) 0
  if n.isValidChar then some (Char.ofNat n) else none

/-- The rest of a string after its opening double quote. -/
def readBasic : List Char → ReadResult
  | [] => none
  | c :: rest =>
    if c = '"' then some ([], rest)
    else if c = '\\' then
      match rest with
      | [] => none
      | e :: rest =>
        if e = 'u' then
          match rest with
          | d₁ :: d₂ :: d₃ :: d₄ :: rest => do
            let x ← numbered? [d₁, d₂, d₃, d₄]
            (readBasic rest).push x
          | _ => none
        else if e = 'U' then
          match rest with
          | d₁ :: d₂ :: d₃ :: d₄ :: d₅ :: d₆ :: d₇ :: d₈ :: rest => do
            let x ← numbered? [d₁, d₂, d₃, d₄, d₅, d₆, d₇, d₈]
            (readBasic rest).push x
          | _ => none
        else do
          let x ← escaped? e
          (readBasic rest).push x
    else if isPlain c then (readBasic rest).push c
    else none

/-- The rest of a string after its opening single quote. -/
def readLiteral : List Char → ReadResult
  | [] => none
  | c :: rest =>
    if c = '\'' then some ([], rest)
    else if isPlain c then (readLiteral rest).push c
    else none

/-- The end of a string after three of the quotes that close it: up to two more belong to the
string. -/
def readClosing (quote : Char) (text : List Char) : List Char × List Char :=
  let more := (text.take 2).takeWhile (· = quote)
  (more, text.drop more.length)

/-- The rest of a string of several lines after its opening double quotes.  While `skipping`, blanks
and ends of lines are passed over: that is how a backslash at the end of a line goes on. -/
def readMultiBasic (skipping : Bool) : List Char → ReadResult
  | [] => none
  | c :: rest =>
    if c = '"' then
      match rest with
      | '"' :: '"' :: rest => some (readClosing '"' rest)
      | _ => (readMultiBasic false rest).push '"'
    else if c = '\\' then
      if startsLine (rest.dropWhile isBlank) then readMultiBasic true rest
      else
        match rest with
        | [] => none
        | e :: rest =>
          if e = 'u' then
            match rest with
            | d₁ :: d₂ :: d₃ :: d₄ :: rest => do
              let x ← numbered? [d₁, d₂, d₃, d₄]
              (readMultiBasic false rest).push x
            | _ => none
          else if e = 'U' then
            match rest with
            | d₁ :: d₂ :: d₃ :: d₄ :: d₅ :: d₆ :: d₇ :: d₈ :: rest => do
              let x ← numbered? [d₁, d₂, d₃, d₄, d₅, d₆, d₇, d₈]
              (readMultiBasic false rest).push x
            | _ => none
          else do
            let x ← escaped? e
            (readMultiBasic false rest).push x
    else if c = '\n' then
      if skipping then readMultiBasic true rest else (readMultiBasic false rest).push '\n'
    else if c = '\r' then
      match rest with
      | '\n' :: rest =>
        if skipping then readMultiBasic true rest else (readMultiBasic false rest).push '\n'
      | _ => none
    else if skipping && isBlank c then readMultiBasic true rest
    else if isPlain c then (readMultiBasic false rest).push c
    else none

/-- The rest of a string of several lines after its opening single quotes. -/
def readMultiLiteral : List Char → ReadResult
  | [] => none
  | c :: rest =>
    if c = '\'' then
      match rest with
      | '\'' :: '\'' :: rest => some (readClosing '\'' rest)
      | _ => (readMultiLiteral rest).push '\''
    else if c = '\n' then (readMultiLiteral rest).push '\n'
    else if c = '\r' then
      match rest with
      | '\n' :: rest => (readMultiLiteral rest).push '\n'
      | _ => none
    else if isPlain c then (readMultiLiteral rest).push c
    else none

/-- A text without the end of a line at its front, if there is one. -/
def dropNewline : List Char → List Char
  | '\n' :: rest | '\r' :: '\n' :: rest => rest
  | text => text

/-- The string at the front of a text, and the rest. -/
def readString : List Char → ReadResult
  | '"' :: '"' :: '"' :: rest => readMultiBasic false (dropNewline rest)
  | '"' :: rest => readBasic rest
  | '\'' :: '\'' :: '\'' :: rest => readMultiLiteral (dropNewline rest)
  | '\'' :: rest => readLiteral rest
  | _ => none

/-! ## Writing -/

/-- The length of the longest run of a character, `run` being the length of the one that ends in
front of the text. -/
def longestRun (quote : Char) (run : Nat) : List Char → Nat
  | [] => run
  | c :: rest =>
    if c = quote then longestRun quote (run + 1) rest
    else max run (longestRun quote 0 rest)

/-- Whether a text has a control character other than a tab or the end of a line. -/
def hasControl (s : List Char) : Bool := s.any fun c => !isPlain c && c ≠ '\n'

/-- A control character by its number, in four digits. -/
def numberedEscape (c : Char) : List Char :=
  ['\\', 'u', '0', '0'] ++ (Bytes.hexPair (UInt8.ofNat c.toNat)).map Char.toUpper

/-- A character as it is written between double quotes, quotes apart. -/
def escapeChar (multiline : Bool) (c : Char) : List Char :=
  if c = '\x08' then ['\\', 'b']
  else if c = '\t' then ['\\', 't']
  else if c = '\n' then if multiline then ['\n'] else ['\\', 'n']
  else if c = '\x0c' then ['\\', 'f']
  else if c = '\r' then ['\\', 'r']
  else if c = '\\' then ['\\', '\\']
  else if isPlain c then [c]
  else numberedEscape c

/-- A string as it is written between double quotes.  Of a run of quotes, as many as may stand there
are left as they are and the next one is escaped: none if the string has one line, and two if it is
between three quotes.  `run` counts the quotes just written as they are. -/
def escapeBasic (multiline : Bool) (run : Nat) : List Char → List Char
  | [] => []
  | c :: rest =>
    if c = '"' then
      if run < (if multiline then 2 else 0) then '"' :: escapeBasic multiline (run + 1) rest
      else '\\' :: '"' :: escapeBasic multiline 0 rest
    else escapeChar multiline c ++ escapeBasic multiline 0 rest

/-- The forms in which a string is written. -/
inductive StringForm where
  | basic | literal | multiBasic | multiLiteral
deriving DecidableEq

/-- The first form that holds a string without escapes, or with the fewest. -/
def formOf (s : List Char) : StringForm :=
  let multiline := s.contains '\n'
  if !hasControl s && !s.contains '\\' && !s.contains '"' && !multiline then .basic
  else if !hasControl s && !s.contains '\'' && !multiline then .literal
  else if !hasControl s && !s.contains '\\' && longestRun '"' 0 s < 3 then .multiBasic
  else if !hasControl s && longestRun '\'' 0 s < 3 then .multiLiteral
  else if multiline then .multiBasic
  else .basic

/-- A string as it is written in a form.  One with several lines begins on a line of its own. -/
def writeAs (form : StringForm) (s : List Char) : List Char :=
  let opening := if s.contains '\n' then ['\n'] else []
  match form with
  | .basic => ['"'] ++ escapeBasic false 0 s ++ ['"']
  | .literal => ['\''] ++ s ++ ['\'']
  | .multiBasic => ['"', '"', '"'] ++ opening ++ escapeBasic true 0 s ++ ['"', '"', '"']
  | .multiLiteral => ['\'', '\'', '\''] ++ opening ++ s ++ ['\'', '\'', '\'']

/-- A string as it is written. -/
def writeString (s : List Char) : List Char := writeAs (formOf s) s

end Finality.Toml
