import Finality.Chain.Error
import Finality.Params
import Finality.Text.Quoted
import Finality.Toml.Document

/-!
# Configuration

The settings of a node, with the text they are read from and written to.

* `Config.validate` refuses settings that a node cannot work with.
* `Config.parse` reads settings from a text, takes the default for what the text does not say,
  ignores what it says besides, and validates the outcome.
* `Config.render` writes settings as a text.
-/

namespace Finality

/-- How log lines look. -/
inductive LogFormat where
  /-- For people. -/
  | human
  /-- For programs. -/
  | json
deriving DecidableEq

/-- The name of a log format in messages. -/
def LogFormat.title : LogFormat → String
  | .human => "Human"
  | .json => "Json"

/-- The settings of a node. -/
structure Config where
  /-- Where the store is kept. -/
  dataDir : String
  /-- How many bytes the store may take. -/
  mapSize : UInt64
  /-- How many tables the store may have. -/
  maxTables : UInt32
  /-- The name of the log format. -/
  logFormatName : String
  /-- Which log lines are written. -/
  logLevel : String
  /-- Whether listeners are told what becomes of polls. -/
  emitEvents : Bool
  /-- The limits on polls, on which all nodes must agree. -/
  params : Params
deriving DecidableEq

namespace Config

/-- The settings used where nothing else is said. -/
def standard : Config :=
  { dataDir := "./vigil_data"
    mapSize := 1024 * 1024 * 1024
    maxTables := Database.tableCount
    logFormatName := "human"
    logLevel := "info"
    emitEvents := true
    params := .standard }

instance : Inhabited Config := ⟨standard⟩

/-- The log format.  Any name but that of the other one means the format for people. -/
def logFormat (c : Config) : LogFormat :=
  if c.logFormatName = "json" then .json else .human

/-- Refuses an unknown log format, too few tables for the store, and polls that can never finish. -/
def validate (c : Config) : Except NodeError Unit :=
  if c.logFormatName ≠ "human" ∧ c.logFormatName ≠ "json" then
    .error (.config ("unknown log format " ++ Text.quoted c.logFormatName
      ++ ", expected \"human\" or \"json\""))
  else if c.maxTables < Database.tableCount then
    .error (.config ("lmdb_max_dbs must be at least " ++ toString Database.tableCount ++ ", got "
      ++ toString c.maxTables))
  else if c.params.maxFinishHorizon = 0 then
    .error (.config "max_finish_horizon must be positive")
  else .ok ()

/-! ## Reading -/

open Toml (Value Entries)

/-- The text of a string. -/
def stringOf? : Value → Option String
  | .string s => some s
  | _ => none

/-- The number of an integer that fits 64 bits without a sign. -/
def word64Of? : Value → Option UInt64
  | .integer n => if 0 ≤ n ∧ n < UInt64.size then some (UInt64.ofNat n.toNat) else none
  | _ => none

/-- The number of an integer that fits 32 bits without a sign. -/
def word32Of? : Value → Option UInt32
  | .integer n => if 0 ≤ n ∧ n < UInt32.size then some (UInt32.ofNat n.toNat) else none
  | _ => none

/-- A truth value. -/
def boolOf? : Value → Option Bool
  | .boolean b => some b
  | _ => none

/-- A setting: the default if the text does not say it, nothing if it says it in the wrong form. -/
def setting {α : Type} (read : Value → Option α) (default : α) : Option Value → Option α
  | none => some default
  | some v => read v

/-- The limits on polls, from the values of their three fields as far as the text says them. -/
def paramsOfFields? (horizon whitelist links : Option Value) : Option Params := do
  let standard := Params.standard
  return {
    maxFinishHorizon := ← setting word64Of? standard.maxFinishHorizon horizon
    maxWhitelistSize := ← setting word64Of? standard.maxWhitelistSize whitelist
    maxLinks := ← setting word64Of? standard.maxLinks links }

/-- The limits on polls: a table, an array of the fields in their order, or a date, which is a table
that says none of them. -/
def paramsOf? : Value → Option Params
  | .table _ es =>
    paramsOfFields? (es.lookup "max_finish_horizon") (es.lookup "max_whitelist_size")
      (es.lookup "max_linked_hashes")
  | .array vs => paramsOfFields? vs[0]? vs[1]? vs[2]?
  | .tables items =>
    let vs := items.map (Value.table .headed)
    paramsOfFields? vs[0]? vs[1]? vs[2]?
  | .datetime _ => some .standard
  | _ => none

/-- The settings that the table of a text says. -/
def ofEntries? (es : Entries) : Option Config := do
  return {
    dataDir := ← setting stringOf? standard.dataDir (es.lookup "data_dir")
    mapSize := ← setting word64Of? standard.mapSize (es.lookup "lmdb_map_size")
    maxTables := ← setting word32Of? standard.maxTables (es.lookup "lmdb_max_dbs")
    logFormatName := ← setting stringOf? standard.logFormatName (es.lookup "log_format")
    logLevel := ← setting stringOf? standard.logLevel (es.lookup "log_level")
    emitEvents := ← setting boolOf? standard.emitEvents (es.lookup "emit_events")
    params := ← setting paramsOf? standard.params (es.lookup "params") }

/-- Reads settings from a text, and validates them. -/
def parse (text : String) : Except NodeError Config :=
  match (Toml.readDocument text).bind ofEntries? with
  | none => .error (.config "TOML parse error")
  | some c => c.validate.map fun _ => c

/-- Reads settings from the contents of a file; `none` for a file that does not exist. -/
def parseFile (contents : Option Bytes) : Except NodeError Config :=
  match contents with
  | none => .error (.config "No such file or directory (os error 2)")
  | some bs =>
    match String.fromUTF8? (ByteArray.mk bs.toArray) with
    | none => .error (.config "stream did not contain valid UTF-8")
    | some text => parse text

/-! ## Writing -/

/-- A number as it is written, unless it does not fit 64 bits with a sign. -/
def renderNumber (n : Nat) : Option (List Char) :=
  if n ≤ Int64.maxValue.toInt then some (Nat.toDigits 10 n) else none

/-- A truth value as it is written. -/
def renderBool (b : Bool) : List Char := if b then "true".toList else "false".toList

/-- One line that gives a key its value. -/
def line (key : String) (value : List Char) : List Char :=
  key.toList ++ [' ', '=', ' '] ++ value ++ ['\n']

/-- The settings as a text, unless a number is too great for one. -/
def render (c : Config) : Option String := do
  let mapSize ← renderNumber c.mapSize.toNat
  let maxTables ← renderNumber c.maxTables.toNat
  let horizon ← renderNumber c.params.maxFinishHorizon.toNat
  let whitelist ← renderNumber c.params.maxWhitelistSize.toNat
  let links ← renderNumber c.params.maxLinks.toNat
  return String.ofList <|
    line "data_dir" (Toml.writeString c.dataDir.toList)
    ++ line "lmdb_map_size" mapSize
    ++ line "lmdb_max_dbs" maxTables
    ++ line "log_format" (Toml.writeString c.logFormatName.toList)
    ++ line "log_level" (Toml.writeString c.logLevel.toList)
    ++ line "emit_events" (renderBool c.emitEvents)
    ++ ['\n'] ++ "[params]\n".toList
    ++ line "max_finish_horizon" horizon
    ++ line "max_whitelist_size" whitelist
    ++ line "max_linked_hashes" links

end Config

end Finality
