import Finality.Config
import Finality.Proofs.Toml.Lines

/-!
# Settings read back

Valid settings that can be written at all are read back as they were
(`rendered_settings_read_back`), whatever characters their strings have.

A setting that the text does not say is the default, so a setting left out of the text, or written
under another key than it is read from, would be changed without a word.  `render_eq` says which
fields the text consists of; `ofEntries?_entries` that the reader finds each of the settings among
them.

The only settings that cannot be written are those with a number that does not fit 64 bits with a
sign (`Writable`, `isSome_render_iff`).
-/

namespace Finality

namespace Config

open Toml (Value Field Bare)

/-- All numbers fit 64 bits with a sign.  The number of tables has 32 bits and always does. -/
structure Writable (c : Config) : Prop where
  mapSize : (c.mapSize.toNat : Int) ≤ Int64.maxValue.toInt
  horizon : (c.params.maxFinishHorizon.toNat : Int) ≤ Int64.maxValue.toInt
  whitelist : (c.params.maxWhitelistSize.toNat : Int) ≤ Int64.maxValue.toInt
  links : (c.params.maxLinks.toNat : Int) ≤ Int64.maxValue.toInt

theorem fits_word32 (w : UInt32) : (w.toNat : Int) ≤ Int64.maxValue.toInt := by
  have h := w.toNat_lt_size
  have greatest : (UInt32.size : Int) ≤ Int64.maxValue.toInt := by decide
  omega

theorem renderNumber_eq_some {n : Nat} (h : (n : Int) ≤ Int64.maxValue.toInt) :
    renderNumber n = some (Nat.toDigits 10 n) := by
  simp [renderNumber, h]

theorem fits_of_renderNumber {n : Nat} {digits : List Char} (h : renderNumber n = some digits) :
    (n : Int) ≤ Int64.maxValue.toInt := by
  unfold renderNumber at h
  split at h
  · assumption
  · cases h

/-! ## What is written -/

/-- The field of a truth value. -/
def boolField (key : String) (bare : Bare key) (b : Bool) : Field :=
  .ofWord key bare (renderBool b) (.boolean b) (by cases b <;> decide)
    (List.all_eq_true.1 (by cases b <;> decide)) (by cases b <;> rfl)

/-- The fields of the limits on polls. -/
def paramsFields (c : Config) (h : c.Writable) : List Field :=
  [.ofNumber "max_finish_horizon" (by decide) _ h.horizon,
    .ofNumber "max_whitelist_size" (by decide) _ h.whitelist,
    .ofNumber "max_linked_hashes" (by decide) _ h.links]

/-- The fields of the other settings. -/
def fields (c : Config) (h : c.Writable) : List Field :=
  [.ofString "data_dir" (by decide) c.dataDir,
    .ofNumber "lmdb_map_size" (by decide) _ h.mapSize,
    .ofNumber "lmdb_max_dbs" (by decide) _ (fits_word32 c.maxTables),
    .ofString "log_format" (by decide) c.logFormatName,
    .ofString "log_level" (by decide) c.logLevel,
    boolField "emit_events" (by decide) c.emitEvents]

theorem render_eq {c : Config} (h : c.Writable) :
    c.render = some (String.ofList (Toml.written (c.fields h) "params" (c.paramsFields h))) := by
  have heading : "[params]\n".toList = Toml.headingLine "params" := rfl
  have text : Toml.written (c.fields h) "params" (c.paramsFields h)
      = line "data_dir" (Toml.writeString c.dataDir.toList)
        ++ line "lmdb_map_size" (Nat.toDigits 10 c.mapSize.toNat)
        ++ line "lmdb_max_dbs" (Nat.toDigits 10 c.maxTables.toNat)
        ++ line "log_format" (Toml.writeString c.logFormatName.toList)
        ++ line "log_level" (Toml.writeString c.logLevel.toList)
        ++ line "emit_events" (renderBool c.emitEvents)
        ++ ['\n'] ++ "[params]\n".toList
        ++ line "max_finish_horizon" (Nat.toDigits 10 c.params.maxFinishHorizon.toNat)
        ++ line "max_whitelist_size" (Nat.toDigits 10 c.params.maxWhitelistSize.toNat)
        ++ line "max_linked_hashes" (Nat.toDigits 10 c.params.maxLinks.toNat) := by
    simp only [Toml.written, fields, paramsFields, List.flatMap_cons, List.flatMap_nil,
      List.append_assoc, List.append_nil, heading, List.cons_append, List.nil_append]
    rfl
  simp only [render, renderNumber_eq_some h.mapSize, renderNumber_eq_some (fits_word32 c.maxTables),
    renderNumber_eq_some h.horizon, renderNumber_eq_some h.whitelist, renderNumber_eq_some h.links,
    text]
  rfl

/-- Settings can be written exactly if their numbers fit. -/
theorem isSome_render_iff (c : Config) : c.render.isSome ↔ c.Writable := by
  have tables := renderNumber_eq_some (fits_word32 c.maxTables)
  constructor
  · intro some
    obtain ⟨text, htext⟩ := Option.isSome_iff_exists.1 some
    simp only [render, tables, Option.bind_eq_bind, Option.bind_eq_some_iff] at htext
    obtain ⟨_, mapSize, _, -, _, horizon, _, whitelist, _, links, -⟩ := htext
    exact ⟨fits_of_renderNumber mapSize, fits_of_renderNumber horizon,
      fits_of_renderNumber whitelist, fits_of_renderNumber links⟩
  · intro h
    simp only [render_eq h, Option.isSome_some]

/-! ## What is read -/

theorem keys_fields {c : Config} (h : c.Writable) : (c.fields h).map Field.key
    = ["data_dir", "lmdb_map_size", "lmdb_max_dbs", "log_format", "log_level", "emit_events"] := rfl

theorem keys_paramsFields {c : Config} (h : c.Writable) : (c.paramsFields h).map Field.key
    = ["max_finish_horizon", "max_whitelist_size", "max_linked_hashes"] := rfl

/-- The table that the limits on polls are read as. -/
def paramsEntries (p : Params) : Toml.Entries :=
  [("max_finish_horizon", .integer p.maxFinishHorizon.toNat),
    ("max_whitelist_size", .integer p.maxWhitelistSize.toNat),
    ("max_linked_hashes", .integer p.maxLinks.toNat)]

/-- The table that the settings are read as. -/
def entries (c : Config) : Toml.Entries :=
  [("data_dir", .string c.dataDir),
    ("lmdb_map_size", .integer c.mapSize.toNat),
    ("lmdb_max_dbs", .integer c.maxTables.toNat),
    ("log_format", .string c.logFormatName),
    ("log_level", .string c.logLevel),
    ("emit_events", .boolean c.emitEvents),
    ("params", .table .headed (paramsEntries c.params))]

theorem readDocument_fields {c : Config} (h : c.Writable) :
    Toml.readDocument (String.ofList (Toml.written (c.fields h) "params" (c.paramsFields h)))
      = some c.entries := by
  refine Toml.readDocument_written (by decide) ?_ ?_ ?_
  · rw [keys_fields h]; decide
  · rw [keys_fields h]; decide
  · rw [keys_paramsFields h]; decide

theorem word64Of?_toNat (w : UInt64) : word64Of? (.integer w.toNat) = some w := by
  have h := w.toNat_lt_size
  have fits : 0 ≤ (w.toNat : Int) ∧ (w.toNat : Int) < UInt64.size := by omega
  rw [word64Of?, if_pos fits, Int.toNat_natCast, UInt64.ofNat_toNat]

theorem word32Of?_toNat (w : UInt32) : word32Of? (.integer w.toNat) = some w := by
  have h := w.toNat_lt_size
  have fits : 0 ≤ (w.toNat : Int) ∧ (w.toNat : Int) < UInt32.size := by omega
  rw [word32Of?, if_pos fits, Int.toNat_natCast, UInt32.ofNat_toNat]

/-- A setting that is found is read.  Said without unfolding how: to open `word64Of?` at a number
that is not given would have the kernel count down from its bound. -/
theorem setting_eq {α : Type} {read : Value → Option α} {default x : α} {v : Value}
    {found : Option Value} (h : found = some v) (value : read v = some x) :
    setting read default found = some x := by
  rw [h]
  exact value

theorem paramsOf?_entries (p : Params) : paramsOf? (.table .headed (paramsEntries p)) = some p := by
  have horizon : (paramsEntries p).lookup "max_finish_horizon"
      = some (.integer p.maxFinishHorizon.toNat) := rfl
  have whitelist : (paramsEntries p).lookup "max_whitelist_size"
      = some (.integer p.maxWhitelistSize.toNat) := rfl
  have links : (paramsEntries p).lookup "max_linked_hashes"
      = some (.integer p.maxLinks.toNat) := rfl
  simp only [paramsOf?, paramsOfFields?, setting_eq horizon (word64Of?_toNat _),
    setting_eq whitelist (word64Of?_toNat _), setting_eq links (word64Of?_toNat _)]
  rfl

/-- Each setting is found under the key it was written under. -/
theorem ofEntries?_entries (c : Config) : ofEntries? c.entries = some c := by
  have dataDir : c.entries.lookup "data_dir" = some (.string c.dataDir) := rfl
  have mapSize : c.entries.lookup "lmdb_map_size" = some (.integer c.mapSize.toNat) := rfl
  have maxTables : c.entries.lookup "lmdb_max_dbs" = some (.integer c.maxTables.toNat) := rfl
  have format : c.entries.lookup "log_format" = some (.string c.logFormatName) := rfl
  have level : c.entries.lookup "log_level" = some (.string c.logLevel) := rfl
  have events : c.entries.lookup "emit_events" = some (.boolean c.emitEvents) := rfl
  have params : c.entries.lookup "params" = some (.table .headed (paramsEntries c.params)) := rfl
  have string (s : String) : stringOf? (.string s) = some s := rfl
  have bool (b : Bool) : boolOf? (.boolean b) = some b := rfl
  simp only [ofEntries?, setting_eq dataDir (string _), setting_eq mapSize (word64Of?_toNat _),
    setting_eq maxTables (word32Of?_toNat _), setting_eq format (string _),
    setting_eq level (string _), setting_eq events (bool _),
    setting_eq params (paramsOf?_entries _)]
  rfl

/-- **Settings survive being written and read**: valid settings whose numbers fit 64 bits with a
sign have a text, and reading it gives the same settings. -/
theorem rendered_settings_read_back (c : Config) (valid : c.validate = .ok ())
    (writable : c.Writable) : ∃ text, c.render = some text ∧ parse text = .ok c := by
  refine ⟨_, render_eq writable, ?_⟩
  rw [parse, readDocument_fields writable, Option.bind_some, ofEntries?_entries]
  simp only [valid]
  rfl

/-- Settings with awkward strings: quotes of both kinds in runs, backslashes, a null, the end of a
line in two ways, and the greatest number that can be written. -/
def awkward : Config :=
  { standard with
    dataDir := "\n'''C:\\data\"\"\"\"\r\n\x00\t\x7f\"\""
    logLevel := "it's \\ \"info\"''"
    logFormatName := "json"
    mapSize := 9223372036854775807
    emitEvents := false }

/-- One of the strings is written with escapes, the other one as it is. -/
theorem rendered_settings_read_back_awkward :
    Toml.formOf awkward.dataDir.toList = .multiBasic ∧
      Toml.formOf awkward.logLevel.toList = .multiLiteral ∧
      ∃ text, awkward.render = some text ∧ parse text = .ok awkward := by
  have valid : awkward.validate = .ok () := rfl
  have writable : awkward.Writable := ⟨by decide, by decide, by decide, by decide⟩
  exact ⟨by decide, by decide, rendered_settings_read_back awkward valid writable⟩

end Config

end Finality
