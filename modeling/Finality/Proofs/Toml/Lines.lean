import Finality.Proofs.Toml.Strings
import Finality.Proofs.Toml.Words
import Finality.Toml.Document

/-!
# Lines read back

A document of one key and value in each line, and below them one table more, is read as those keys
with those values (`readDocument_written`).

A `Field` is a key with a value and with what is written for the value; it carries the proof that
the value reads back in front of the end of a line.  One line adds one entry to the table it stands
in (`readLines_field`), so a run of lines adds one for each (`readLines_fields`).  Which table that
is makes no difference to the lines: `Draft.TakesIn` says what they need of it, and both the table
of the document and one with a heading have it.
-/

namespace Finality.Toml

/-! ## Keys -/

/-- The key needs no quotes. -/
def Bare (key : String) : Prop := key.toList ≠ [] ∧ key.toList.all isKeyChar

instance (key : String) : Decidable (Bare key) := inferInstanceAs (Decidable (_ ∧ _))

theorem Bare.forall_mem {key : String} (h : Bare key) : ∀ c ∈ key.toList, isKeyChar c :=
  List.all_eq_true.1 h.2

theorem Bare.exists_cons {key : String} (h : Bare key) :
    ∃ c cs, key.toList = c :: cs ∧ isKeyChar c := by
  obtain ⟨c, cs, eq⟩ := List.exists_cons_of_ne_nil h.1
  exact ⟨c, cs, eq, h.forall_mem c (by simp [eq])⟩

theorem ne_of_isKeyChar {c d : Char} (h : isKeyChar c) (other : isKeyChar d = false) : c ≠ d := by
  rintro rfl
  simp [other] at h

/-- A line that begins with a key is not blank. -/
theorem Bare.dropBlanks_append {key : String} (h : Bare key) (rest : List Char) :
    dropBlanks (key.toList ++ rest) = key.toList ++ rest := by
  obtain ⟨c, cs, eq, hc⟩ := h.exists_cons
  have space := ne_of_isKeyChar hc (rfl : isKeyChar ' ' = false)
  have tab := ne_of_isKeyChar hc (rfl : isKeyChar '\t' = false)
  simp [dropBlanks, eq, isBlank, space, tab]

theorem Bare.endLine?_append {key : String} (h : Bare key) (rest : List Char) :
    endLine? (key.toList ++ rest) = none := by
  obtain ⟨c, cs, eq, hc⟩ := h.exists_cons
  have hash := ne_of_isKeyChar hc (rfl : isKeyChar '#' = false)
  have newline := ne_of_isKeyChar hc (rfl : isKeyChar '\n' = false)
  have carriage := ne_of_isKeyChar hc (rfl : isKeyChar '\r' = false)
  rw [endLine?, h.dropBlanks_append, eq]
  simp [dropComment, hash, newline, carriage]

theorem Bare.readKeyPart_append {key : String} (h : Bare key) {c : Char} (hc : isKeyChar c = false)
    (rest : List Char) : readKeyPart (key.toList ++ c :: rest) = some (key, c :: rest) := by
  have taken : (key.toList ++ c :: rest).takeWhile isKeyChar = key.toList := by
    simp [List.takeWhile_append_of_pos h.forall_mem, hc]
  have left : (key.toList ++ c :: rest).dropWhile isKeyChar = c :: rest := by
    simp [List.dropWhile_append_of_pos h.forall_mem, hc]
  obtain ⟨d, ds, eq, hd⟩ := h.exists_cons
  have double := ne_of_isKeyChar hd (rfl : isKeyChar '"' = false)
  have single := ne_of_isKeyChar hd (rfl : isKeyChar '\'' = false)
  unfold readKeyPart
  split
  case h_1 quoted => simp [eq, double] at quoted
  case h_2 quoted => simp [eq, single] at quoted
  case h_3 => simp [taken, left, h.1]

/-- A key with no dot behind it, up to what comes after the blanks that follow. -/
theorem Bare.readKey_append {key : String} (h : Bare key) {c : Char} (hc : isKeyChar c = false)
    {rest : List Char} (dot : (dropBlanks (c :: rest)).head? ≠ some '.') :
    readKey nestingLimit (key.toList ++ c :: rest)
      = some ([], key, dropBlanks (c :: rest)) := by
  rw [nestingLimit, readKey, h.dropBlanks_append, h.readKeyPart_append hc]
  simp only [Option.bind_eq_bind, Option.bind_some]
  split
  case h_1 dotted => simp [dotted] at dot
  case h_2 => rfl

/-! ## Values -/

/-- A word at the end of a line is read as the value it is. -/
theorem readValue_word {word : List Char} {v : Value} (ne : word ≠ [])
    (chars : ∀ c ∈ word, isWordChar c) (value : Value.ofWord? word = some v) (rest : List Char) :
    readValue nestingLimit (dropBlanks (word ++ '\n' :: rest)) = some (v, '\n' :: rest) := by
  obtain ⟨c, cs, rfl⟩ := List.exists_cons_of_ne_nil ne
  have hc : isWordChar c := chars c List.mem_cons_self
  have other {d : Char} (h : isWordChar d = false) : c ≠ d := by
    rintro rfl
    simp [h] at hc
  have blanks : dropBlanks (c :: cs ++ '\n' :: rest) = c :: cs ++ '\n' :: rest := by
    simp [dropBlanks, isBlank, other (rfl : isWordChar ' ' = false),
      other (rfl : isWordChar '\t' = false)]
  rw [blanks, nestingLimit, readValue, readWord_append chars value]
  · exact fun _ quoted => other rfl (List.cons.inj quoted).1
  · exact fun _ quoted => other rfl (List.cons.inj quoted).1
  · exact fun _ array => other rfl (List.cons.inj array).1
  · exact fun _ table => other rfl (List.cons.inj table).1

/-- A string at the end of a line is read as that string. -/
theorem readValue_writeString (s : String) (rest : List Char) :
    readValue nestingLimit (dropBlanks (writeString s.toList ++ '\n' :: rest))
      = some (.string s, '\n' :: rest) := by
  have read : readText (writeString s.toList ++ '\n' :: rest) = some (.string s, '\n' :: rest) := by
    have text : ('\n' :: rest).head? ≠ some '"' ∧ ('\n' :: rest).head? ≠ some '\'' := by simp
    simp [readText, readString_writeString s.toList text.1 text.2]
  obtain ⟨cs, quoted | quoted⟩ := writeString_eq_cons s.toList
  · rw [quoted] at read ⊢
    exact read
  · rw [quoted] at read ⊢
    exact read

/-! ## Fields -/

/-- A key and its value, with what is written for the value. -/
structure Field where
  key : String
  value : Value
  written : List Char
  bare : Bare key
  /-- In front of the end of a line the value reads back. -/
  reads : ∀ rest, readValue nestingLimit (dropBlanks (written ++ '\n' :: rest))
    = some (value, '\n' :: rest)

namespace Field

/-- The line of a field. -/
def line (f : Field) : List Char := f.key.toList ++ [' ', '=', ' '] ++ f.written ++ ['\n']

/-- What a field adds to a table. -/
def entry (f : Field) : String × Value := (f.key, f.value)

theorem readPair_line (f : Field) (rest : List Char) :
    readPair (readValue nestingLimit) (f.line ++ rest)
      = some ([], f.key, f.value, '\n' :: rest) := by
  have key : readKey nestingLimit (f.line ++ rest)
      = some ([], f.key, '=' :: ' ' :: (f.written ++ '\n' :: rest)) := by
    have equals : dropBlanks (' ' :: '=' :: ' ' :: (f.written ++ '\n' :: rest))
        = '=' :: ' ' :: (f.written ++ '\n' :: rest) := rfl
    have read := f.bare.readKey_append (rfl : isKeyChar ' ' = false)
      (by simp [equals] :
        (dropBlanks (' ' :: '=' :: ' ' :: (f.written ++ '\n' :: rest))).head? ≠ some '.')
    simpa [line, equals] using read
  have value : readValue nestingLimit (dropBlanks (' ' :: (f.written ++ '\n' :: rest)))
      = some (f.value, '\n' :: rest) := f.reads rest
  simp [readPair, key, value]

/-- The field of a word. -/
def ofWord (key : String) (bare : Bare key) (word : List Char) (v : Value) (ne : word ≠ [])
    (chars : ∀ c ∈ word, isWordChar c) (value : Value.ofWord? word = some v) : Field where
  key := key
  value := v
  written := word
  bare := bare
  reads := readValue_word ne chars value

/-- The field of a string. -/
def ofString (key : String) (bare : Bare key) (s : String) : Field where
  key := key
  value := .string s
  written := writeString s.toList
  bare := bare
  reads := readValue_writeString s

/-- The field of a number, which must fit 64 bits with a sign. -/
def ofNumber (key : String) (bare : Bare key) (n : Nat)
    (fits : (n : Int) ≤ Int64.maxValue.toInt) : Field :=
  ofWord key bare (Nat.toDigits 10 n) (.integer n) Nat.toDigits_ne_nil (isWordChar_toDigits n)
    (ofWord?_toDigits fits)

end Field

/-! ## Tables -/

theorem replace_concat {es : Entries} {key : String} (new : es.lookup key = none) (v w : Value) :
    Entries.replace (es ++ [(key, v)]) key w = es ++ [(key, w)] := by
  have others : es.map (fun e => if e.1 = key then (key, w) else e) = es := by
    rw [List.lookup_eq_none_iff] at new
    calc es.map (fun e => if e.1 = key then (key, w) else e)
        = es.map id := List.map_congr_left fun e he => by
          have ne : e.1 ≠ key := fun eq => by simpa [eq] using new e he
          simp [ne]
      _ = es := List.map_id es
  simp [Entries.replace, others]

/-- A draft whose next keys go to a table, for all the entries that table may have. -/
structure Draft.TakesIn (draft : Entries → Draft) : Prop where
  define : ∀ es key v, es.lookup key = none →
    (draft es).define [] key v = some (draft (es ++ [(key, v)]))

theorem takesIn_root : Draft.TakesIn fun es => { root := es, heading := [] } where
  define es key v fresh := by
    simp [Draft.define, Entries.alter, Entries.define, fresh]

theorem takesIn_table {before : Entries} {heading : String} (new : before.lookup heading = none) :
    Draft.TakesIn fun es =>
      { root := before ++ [(heading, .table .headed es)], heading := [heading] } where
  define es key v fresh := by
    have found : (before ++ [(heading, Value.table .headed es)]).lookup heading
        = some (.table .headed es) := by
      simp [List.lookup_append, new]
    simp [Draft.define, Entries.alter, found, replace_concat new, Entries.define, fresh]

/-! ## Lines -/

/-- A line that is neither blank nor a comment takes one step. -/
theorem readLines_line {d d' : Draft} {text rest : List Char} (ne : text ≠ [])
    (blanks : dropBlanks text = text) (begins : endLine? text = none)
    (read : readLine d text = some (d', rest)) (count : Nat) :
    readLines (count + 1) d text = readLines count d' rest := by
  rw [readLines, blanks]
  split
  case h_1 => exact absurd rfl ne
  case h_2 => simp [begins, read]

theorem readLine_field {draft : Entries → Draft} (h : Draft.TakesIn draft) (f : Field)
    {es : Entries} (fresh : es.lookup f.key = none) (rest : List Char) :
    readLine (draft es) (f.line ++ rest) = some (draft (es ++ [f.entry]), rest) := by
  obtain ⟨c, cs, eq, hc⟩ := f.bare.exists_cons
  have bracket := ne_of_isKeyChar hc (rfl : isKeyChar '[' = false)
  have after : endLine? ('\n' :: rest) = some rest := rfl
  have added := h.define es f.key f.value fresh
  unfold readLine
  split
  case h_1 heading => simp [Field.line, eq, bracket] at heading
  case h_2 heading => simp [Field.line, eq, bracket] at heading
  case h_3 => simp [f.readPair_line, added, after, Field.entry]

theorem readLines_field {draft : Entries → Draft} (h : Draft.TakesIn draft) (f : Field)
    {es : Entries} (fresh : es.lookup f.key = none) (count : Nat) (rest : List Char) :
    readLines (count + 1) (draft es) (f.line ++ rest)
      = readLines count (draft (es ++ [f.entry])) rest := by
  have blanks : dropBlanks (f.line ++ rest) = f.line ++ rest := by
    simpa [Field.line] using f.bare.dropBlanks_append ([' ', '=', ' '] ++ f.written ++ '\n' :: rest)
  have begins : endLine? (f.line ++ rest) = none := by
    simpa [Field.line] using f.bare.endLine?_append ([' ', '=', ' '] ++ f.written ++ '\n' :: rest)
  exact readLines_line (by simp [Field.line]) blanks begins (readLine_field h f fresh rest) count

theorem readLines_fields {draft : Entries → Draft} (h : Draft.TakesIn draft) (fields : List Field)
    {es : Entries} (fresh : ∀ f ∈ fields, es.lookup f.key = none)
    (distinct : (fields.map Field.key).Nodup) (count : Nat) (rest : List Char) :
    readLines (count + fields.length) (draft es) (fields.flatMap Field.line ++ rest)
      = readLines count (draft (es ++ fields.map Field.entry)) rest := by
  induction fields generalizing es with
  | nil => simp
  | cons f fields ih =>
    obtain ⟨hf, hfields⟩ := List.forall_mem_cons.1 fresh
    obtain ⟨new, distinct⟩ := List.nodup_cons.1 distinct
    have fresh : ∀ g ∈ fields, (es ++ [f.entry]).lookup g.key = none := by
      intro g hg
      have ne : f.key ≠ g.key := fun eq => new (eq ▸ List.mem_map_of_mem hg)
      simp [List.lookup_append, hfields g hg, Field.entry, Ne.symm ne]
    have read := readLines_field h f hf (count + fields.length) (fields.flatMap Field.line ++ rest)
    rw [ih fresh distinct] at read
    simpa [Nat.add_assoc] using read

theorem readLines_empty (count : Nat) (d : Draft) (rest : List Char) :
    readLines (count + 1) d ('\n' :: rest) = readLines count d rest := by
  simp [readLines, dropBlanks, isBlank, endLine?, dropComment]

theorem Bare.readHeading_append {key : String} (h : Bare key) (rest : List Char) :
    readHeading [']'] (key.toList ++ ']' :: '\n' :: rest) = some ([], key, rest) := by
  have bracket : dropBlanks (']' :: '\n' :: rest) = ']' :: '\n' :: rest := rfl
  have read := h.readKey_append (rfl : isKeyChar ']' = false)
    (by simp [bracket] : (dropBlanks (']' :: '\n' :: rest)).head? ≠ some '.')
  have after : endLine? ('\n' :: rest) = some rest := rfl
  simp [readHeading, read, bracket, after]

theorem enter_openTable {d : Draft} {key : String} (new : d.root.lookup key = none) :
    d.enter Entries.openTable [] key
      = some { root := d.root ++ [(key, .table .headed [])], heading := [key] } := by
  simp [Draft.enter, Entries.alter, Entries.openTable, new]

/-- The line of a heading. -/
def headingLine (key : String) : List Char := '[' :: (key.toList ++ [']', '\n'])

theorem readLine_heading {key : String} (h : Bare key) {d : Draft}
    (new : d.root.lookup key = none) (rest : List Char) :
    readLine d (headingLine key ++ rest)
      = some ({ root := d.root ++ [(key, .table .headed [])], heading := [key] }, rest) := by
  obtain ⟨c, cs, eq, hc⟩ := h.exists_cons
  have bracket := ne_of_isKeyChar hc (rfl : isKeyChar '[' = false)
  unfold readLine
  split
  case h_1 double => simp [headingLine, eq, bracket] at double
  case h_2 single =>
    obtain rfl : key.toList ++ ']' :: '\n' :: rest = _ := by simpa [headingLine] using single
    simp [h.readHeading_append, enter_openTable new]
  case h_3 none => simp [headingLine] at none

theorem readLines_heading {key : String} (h : Bare key) {d : Draft}
    (new : d.root.lookup key = none) (count : Nat) (rest : List Char) :
    readLines (count + 1) d (headingLine key ++ rest)
      = readLines count
          { root := d.root ++ [(key, .table .headed [])], heading := [key] } rest :=
  -- The bracket alone shows that the line is neither blank nor a comment.
  readLines_line (by simp [headingLine]) rfl rfl (readLine_heading h new rest) count

/-! ## Documents -/

/-- A document of some fields and, below an empty line, a table with more of them. -/
def written (fields : List Field) (heading : String) (below : List Field) : List Char :=
  fields.flatMap Field.line ++ '\n' :: (headingLine heading ++ below.flatMap Field.line)

/-- There are at least as many characters as lines, so the reader never runs out of them. -/
theorem length_lines_le (fields : List Field) :
    fields.length ≤ (fields.flatMap Field.line).length := by
  induction fields with
  | nil => simp
  | cons f fields ih =>
    have one : 0 < f.line.length := List.length_pos_iff.2 (by simp [Field.line])
    simp only [List.length_cons, List.flatMap_cons, List.length_append]
    omega

theorem head?_written (fields : List Field) (heading : String) (below : List Field) :
    (written fields heading below).head? ≠ some '\ufeff' := by
  cases fields with
  | nil => simp [written]
  | cons f fields =>
    obtain ⟨c, cs, eq, hc⟩ := f.bare.exists_cons
    have mark := ne_of_isKeyChar hc (rfl : isKeyChar '\ufeff' = false)
    simp [written, Field.line, eq, mark]

/-- A text that begins with no byte order mark is read from its first character. -/
theorem readDocument_ofList {text : List Char} (mark : text.head? ≠ some '\ufeff') :
    readDocument (String.ofList text)
      = (readLines (text.length + 1) { root := [], heading := [] } text).map Draft.root := by
  unfold readDocument
  rw [String.toList_ofList]
  cases text with
  | nil => rfl
  | cons c rest =>
    have ne : c ≠ '\ufeff' := by simpa using mark
    split
    case h_1 eq => exact absurd (List.cons.inj eq).1 ne
    case h_2 => rfl

theorem lookup_entries_eq_none {fields : List Field} {key : String}
    (new : key ∉ fields.map Field.key) : (fields.map Field.entry).lookup key = none := by
  rw [List.lookup_eq_none_iff]
  intro e he
  obtain ⟨f, hf, rfl⟩ := List.mem_map.1 he
  have ne : key ≠ f.key := fun eq => new (eq ▸ List.mem_map_of_mem hf)
  simpa [Field.entry] using ne

/-- **Fields read back**, those of the document and those of the table below. -/
theorem readDocument_written {fields : List Field} {heading : String} {below : List Field}
    (bare : Bare heading) (distinct : (fields.map Field.key).Nodup)
    (new : heading ∉ fields.map Field.key) (distinctBelow : (below.map Field.key).Nodup) :
    readDocument (String.ofList (written fields heading below))
      = some (fields.map Field.entry ++ [(heading, .table .headed (below.map Field.entry))]) := by
  have new := lookup_entries_eq_none new
  -- One step for each line, one for the empty line, one for the heading, and one to end with.
  obtain ⟨count, enough⟩ : ∃ count, (written fields heading below).length + 1
      = count + 1 + below.length + 1 + 1 + fields.length := by
    have top := length_lines_le fields
    have bottom := length_lines_le below
    refine ⟨(written fields heading below).length - (2 + below.length + fields.length), ?_⟩
    simp only [written, headingLine, List.length_append, List.length_cons, List.length_nil]
    omega
  have nothing (f : Field) : ([] : Entries).lookup f.key = none := rfl
  have top := readLines_fields takesIn_root fields (fun f _ => nothing f) distinct
    (count + 1 + below.length + 1 + 1)
    ('\n' :: (headingLine heading ++ below.flatMap Field.line))
  have bottom := readLines_fields (takesIn_table new) below (fun f _ => nothing f) distinctBelow
    (count + 1) []
  rw [List.append_nil] at bottom
  rw [readDocument_ofList (head?_written fields heading below), enough, written, top,
    readLines_empty, List.nil_append, readLines_heading bare new, bottom]
  rfl

end Finality.Toml
