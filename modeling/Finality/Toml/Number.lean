import Finality.Bytes
import Finality.Toml.Value

/-!
# Numbers, truth values and dates in a configuration text

A value that is neither a string nor in brackets or braces is one *word*: a run of letters, digits
and a few signs.  `Value.ofWord?` says what value a word is.

* Integers are decimal, or hexadecimal, octal or binary behind `0x`, `0o` or `0b`, and fit 64 bits
  with a sign; a decimal one has no leading zero.
* Floats have a fraction, an exponent or both, or are `inf` or `nan`; one that rounds to infinity is
  refused unless it is negative.
* Single underscores may stand between digits.
* Dates are days of the calendar, times go up to second 60, and both together may have an offset.
-/

namespace Finality.Toml

/-! ## Digits -/

/-- The number that a character stands for as a digit in a base up to sixteen. -/
def digit? (base : Nat) (c : Char) : Option Nat :=
  (Bytes.hexValue? c).filter (· < base)

/-- The numbers of digits that may have single underscores between them; there must be a digit. -/
def digits? (base : Nat) : List Char → Option (List Nat)
  | [] => none
  | [c] => (digit? base c).map ([·])
  | c :: '_' :: rest => do
    let d ← digit? base c
    let ds ← digits? base rest
    return d :: ds
  | c :: rest => do
    let d ← digit? base c
    let ds ← digits? base rest
    return d :: ds

/-- The number with these digits, the first one most significant. -/
def ofDigits (base : Nat) (ds : List Nat) : Nat := ds.foldl (fun n d => base * n + d) 0

/-- The number that decimal digits without a leading zero stand for. -/
def decimal? (word : List Char) : Option Nat := do
  let ds ← digits? 10 word
  match ds with
  | 0 :: _ :: _ => none
  | _ => return ofDigits 10 ds

/-- Whether a number is negative, and what comes after its sign. -/
def splitSign : List Char → Bool × List Char
  | '-' :: rest => (true, rest)
  | '+' :: rest => (false, rest)
  | word => (false, word)

/-- A number with a sign. -/
def signed (negative : Bool) (n : Nat) : Int := if negative then -(n : Int) else n

/-! ## Integers -/

/-- The integer that a word is, if it is one and fits 64 bits. -/
def integer? (word : List Char) : Option Int := do
  let n ←
    match word with
    | '0' :: 'x' :: rest => (digits? 16 rest).map fun ds => (ofDigits 16 ds : Int)
    | '0' :: 'o' :: rest => (digits? 8 rest).map fun ds => (ofDigits 8 ds : Int)
    | '0' :: 'b' :: rest => (digits? 2 rest).map fun ds => (ofDigits 2 ds : Int)
    | _ =>
      let (negative, rest) := splitSign word
      (decimal? rest).map (signed negative)
  if Int64.minValue.toInt ≤ n ∧ n ≤ Int64.maxValue.toInt then return n else none

/-! ## Floats -/

/-- The least number that rounds to infinity as a double: half a unit above the greatest double. -/
def infinityBound : Nat := Nat.pow 2 1024 - Nat.pow 2 970

/-- Whether `n * 10 ^ e` rounds to infinity as a double.  Where the number of digits and the
exponent leave no doubt, the power is not computed. -/
def roundsToInfinity (n : Nat) (e : Int) : Bool :=
  let size := (Nat.toDigits 10 n).length + e
  if n = 0 ∨ size < 300 then false
  else if 320 < size then true
  else if 0 ≤ e then infinityBound ≤ n * Nat.pow 10 e.toNat
  else infinityBound * Nat.pow 10 (-e).toNat ≤ n

/-- The exponent at the end of a float; zero if there is none. -/
def exponent? : List Char → Option Int
  | [] => some 0
  | c :: rest =>
    if c = 'e' ∨ c = 'E' then
      let (negative, rest) := splitSign rest
      (digits? 10 rest).map fun ds => signed negative (ofDigits 10 ds)
    else none

/-- Whether a character may stand among digits. -/
def isDigitOrUnderscore (c : Char) : Bool := c.isDigit || c = '_'

/-- Whether a word is a float. -/
def isFloat (word : List Char) : Bool :=
  let (negative, rest) := splitSign word
  if rest = ['i', 'n', 'f'] ∨ rest = ['n', 'a', 'n'] then true
  else
    let whole := rest.takeWhile isDigitOrUnderscore
    let check (n : Nat) (places : Nat) (rest : List Char) : Bool :=
      match exponent? rest with
      | some e => negative || !roundsToInfinity n (e - places)
      | none => false
    match decimal? whole, rest.dropWhile isDigitOrUnderscore with
    | some n, '.' :: rest =>
      match digits? 10 (rest.takeWhile isDigitOrUnderscore) with
      | some ds =>
        check (ds.foldl (fun n d => 10 * n + d) n) ds.length (rest.dropWhile isDigitOrUnderscore)
      | none => false
    | some n, c :: rest => check n 0 (c :: rest)
    | _, _ => false

/-! ## Dates and times -/

/-- The number of two digits at the front of a text, if it lies between two bounds, and the rest. -/
def twoDigits? (low high : Nat) : List Char → Option (Nat × List Char)
  | a :: b :: rest => do
    let n := 10 * (← digit? 10 a) + (← digit? 10 b)
    if low ≤ n ∧ n ≤ high then return (n, rest) else none
  | _ => none

/-- The number of days in a month. -/
def daysIn (year month : Nat) : Nat :=
  if month = 2 then
    if year % 4 = 0 ∧ (year % 100 ≠ 0 ∨ year % 400 = 0) then 29 else 28
  else if month ∈ [4, 6, 9, 11] then 30
  else 31

/-- What comes after the date at the front of a text, if there is one. -/
def afterDate? (text : List Char) : Option (List Char) := do
  let (century, rest) ← twoDigits? 0 99 text
  let (year, rest) ← twoDigits? 0 99 rest
  match rest with
  | '-' :: rest =>
    let (month, rest) ← twoDigits? 1 12 rest
    match rest with
    | '-' :: rest =>
      let (_, rest) ← twoDigits? 1 (daysIn (100 * century + year) month) rest
      return rest
    | _ => none
  | _ => none

/-- What comes after hours and minutes at the front of a text, if they are there. -/
def afterMinutes? (text : List Char) : Option (List Char) := do
  let (_, rest) ← twoDigits? 0 23 text
  match rest with
  | ':' :: rest =>
    let (_, rest) ← twoDigits? 0 59 rest
    return rest
  | _ => none

/-- What comes after the time at the front of a text, if there is one. -/
def afterTime? (text : List Char) : Option (List Char) := do
  match ← afterMinutes? text with
  | ':' :: rest =>
    let (_, rest) ← twoDigits? 0 60 rest
    match rest with
    | '.' :: rest => if (rest.takeWhile Char.isDigit).isEmpty then none
                     else return rest.dropWhile Char.isDigit
    | rest => return rest
  | _ => none

/-- Whether a word is an offset from universal time, or empty. -/
def isOffset : List Char → Bool
  | [] => true
  | c :: rest =>
    if c = 'Z' ∨ c = 'z' then rest = []
    else if c = '+' ∨ c = '-' then afterMinutes? rest = some []
    else false

/-- Whether a word is a time with or without an offset. -/
def isOffsetTime (word : List Char) : Bool :=
  match afterTime? word with
  | some rest => isOffset rest
  | none => false

/-- Whether a word is a date alone. -/
def isDate (word : List Char) : Bool := afterDate? word = some []

/-- Whether a word is a date, a time, or a date and a time with a letter between them. -/
def isDatetime (word : List Char) : Bool :=
  isDate word || afterTime? word = some [] ||
    match afterDate? word with
    | some (c :: rest) => (c = 'T' || c = 't') && isOffsetTime rest
    | _ => false

/-! ## Words -/

/-- Whether a character may belong to a word. -/
def isWordChar (c : Char) : Bool := c.isAlphanum || "_+-.:".toList.contains c

/-- The value that a word is. -/
def Value.ofWord? (word : List Char) : Option Value :=
  if word = ['t', 'r', 'u', 'e'] then some (.boolean true)
  else if word = ['f', 'a', 'l', 's', 'e'] then some (.boolean false)
  else if isDatetime word then some (.datetime (String.ofList word))
  else if isFloat word then some (.float (String.ofList word))
  else (integer? word).map .integer

/-- The value at the front of a text that is neither a string nor in brackets or braces, and the
rest.  A date and a time may have a blank between them. -/
def readWord (text : List Char) : Option (Value × List Char) := do
  let word := text.takeWhile isWordChar
  let rest := text.dropWhile isWordChar
  let time := (rest.drop 1).takeWhile isWordChar
  if isDate word ∧ rest.head? = some ' ' ∧ isOffsetTime time then
    return (.datetime (String.ofList (word ++ ' ' :: time)), (rest.drop 1).drop time.length)
  else return (← Value.ofWord? word, rest)

end Finality.Toml
