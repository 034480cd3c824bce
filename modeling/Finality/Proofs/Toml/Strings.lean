import Finality.Toml.Text

/-!
# Strings read back

A string that `writeString` has written is read by `readString` as the same string, with nothing
lost of what follows it (`readString_writeString`).  All that is asked of what follows is that it
does not begin with a quote: the quotes that close a string would run on into it.

* Between double quotes every character is written as itself or as an *escape*
  (`Escape`, `writes_escapeChar`), and the readers of both forms undo either.
* Between three quotes a run of quotes is what needs care.  `Leads` counts the quotes at the front
  of a text.  One more in front of them is read as part of the string as long as it makes neither
  three in a row too early nor more than two in front of the three that close
  (`Closes.push_quote`).
  Both writers keep to that: one by escaping the third of a run, the other by being used for
  shorter runs alone (`leads_escapeBasic`, `leads_literal`).
-/

namespace Finality.Toml

@[simp] theorem ReadResult.push_some (c : Char) (cs rest : List Char) :
    ReadResult.push c (some (cs, rest)) = some (c :: cs, rest) := rfl

/-- No part of the end of a line is plain. -/
theorem of_isPlain {c : Char} (h : isPlain c) : c ≠ '\n' ∧ c ≠ '\r' := by
  constructor <;> rintro rfl <;> simp [isPlain] at h

/-! ## Escapes -/

/-- A backslash with what comes after it, and the character both together stand for. -/
inductive Escape : List Char → Char → Prop where
  | letter {e c : Char} (h : escaped? e = some c) : Escape ['\\', e] c
  | number {d₁ d₂ d₃ d₄ c : Char} (h : numbered? [d₁, d₂, d₃, d₄] = some c) :
    Escape ['\\', 'u', d₁, d₂, d₃, d₄] c

/-- A letter after a backslash is neither of those that begin a number, nor could it end the line
that the backslash is in. -/
theorem of_escaped? {e c : Char} (h : escaped? e = some c) :
    e ≠ 'u' ∧ e ≠ 'U' ∧ isBlank e = false ∧ e ≠ '\n' ∧ e ≠ '\r' := by
  have letter : e ∈ ['b', 't', 'n', 'f', 'r', '"', '\\'] := by
    unfold escaped? at h
    grind
  simp only [List.mem_cons, List.not_mem_nil, or_false] at letter
  obtain rfl | rfl | rfl | rfl | rfl | rfl | rfl := letter <;> decide

theorem escape_quote : Escape ['\\', '"'] '"' := .letter rfl

theorem hexValue?_toUpper_hexDigit :
    ∀ d < 16, Bytes.hexValue? (Bytes.hexDigit d).toUpper = some d := by
  decide

/-- A character below 256 by its number in four digits. -/
theorem numbered?_hexPair {c : Char} (h : c.toNat < 256) :
    numbered? ['0', '0', (Bytes.hexDigit (c.toNat / 16)).toUpper,
      (Bytes.hexDigit (c.toNat % 16)).toUpper] = some c := by
  have high := hexValue?_toUpper_hexDigit (c.toNat / 16) (by omega)
  have low := hexValue?_toUpper_hexDigit (c.toNat % 16) (by omega)
  have zero : Bytes.hexValue? '0' = some 0 := by decide
  have value : 16 * (c.toNat / 16) + c.toNat % 16 = c.toNat := by omega
  have valid : c.toNat.isValidChar := c.valid
  simp [numbered?, high, low, zero, value, valid]

theorem escape_numberedEscape {c : Char} (h : isPlain c = false) : Escape (numberedEscape c) c := by
  have small : c.toNat < 256 := by
    simp [isPlain] at h
    omega
  have byte : (UInt8.ofNat c.toNat).toNat = c.toNat := by
    simp
    omega
  simpa [numberedEscape, Bytes.hexPair, byte] using Escape.number (numbered?_hexPair small)

/-- How a character may stand between double quotes: as it is, which the end of a line may do if
the string may have several lines, or as an escape. -/
inductive Writes (multiline : Bool) : List Char → Char → Prop where
  | plain {c : Char} (plain : isPlain c) (quote : c ≠ '"') (backslash : c ≠ '\\') :
    Writes multiline [c] c
  | newline (h : multiline) : Writes multiline ['\n'] '\n'
  | escape {written : List Char} {c : Char} (h : Escape written c) : Writes multiline written c

theorem writes_escapeChar (multiline : Bool) {c : Char} (quote : c ≠ '"') :
    Writes multiline (escapeChar multiline c) c := by
  unfold escapeChar
  split
  case isTrue h => subst h; exact .escape (.letter rfl)
  split
  case isTrue h => subst h; exact .escape (.letter rfl)
  split
  case isTrue h =>
    subst h
    cases multiline with
    | true => exact .newline rfl
    | false => exact .escape (.letter rfl)
  split
  case isTrue h => subst h; exact .escape (.letter rfl)
  split
  case isTrue h => subst h; exact .escape (.letter rfl)
  split
  case isTrue h => subst h; exact .escape (.letter rfl)
  case isFalse backslash =>
    by_cases plain : isPlain c
    · simpa [plain] using Writes.plain plain quote backslash
    · simpa [plain] using Writes.escape (escape_numberedEscape (by simpa using plain))

/-- What is written for a character begins with no quote. -/
theorem Writes.head_ne {multiline : Bool} {written : List Char} {c : Char}
    (h : Writes multiline written c) (rest : List Char) :
    (written ++ rest).head? ≠ some '"' := by
  cases h with
  | plain _ quote _ => simpa using quote
  | newline => simp
  | escape h => cases h <;> simp

/-! ## Between double quotes -/

theorem readBasic_escape {written : List Char} {c : Char} (h : Escape written c)
    (rest : List Char) : readBasic (written ++ rest) = (readBasic rest).push c := by
  cases h with
  | letter h =>
    obtain ⟨u, U, -⟩ := of_escaped? h
    simp only [List.cons_append, List.nil_append]
    rw [readBasic.eq_def]
    simp [u, U, h]
  | number h =>
    simp only [List.cons_append, List.nil_append]
    rw [readBasic.eq_def]
    simp [h]

theorem Writes.readBasic_append {written : List Char} {c : Char} (h : Writes false written c)
    (rest : List Char) : readBasic (written ++ rest) = (readBasic rest).push c := by
  cases h with
  | plain plain quote backslash =>
    rw [List.singleton_append, readBasic.eq_def]
    simp [quote, backslash, plain]
  | newline h => cases h
  | escape h => exact readBasic_escape h rest

/-- Between double quotes any string reads back. -/
theorem readBasic_escapeBasic (s rest : List Char) :
    readBasic (escapeBasic false 0 s ++ '"' :: rest) = some (s, rest) := by
  induction s with
  | nil =>
    rw [escapeBasic, List.nil_append, readBasic.eq_def]
    simp
  | cons c s ih =>
    by_cases quote : c = '"'
    · subst quote
      have read := readBasic_escape escape_quote (escapeBasic false 0 s ++ '"' :: rest)
      simpa [escapeBasic, ih] using read
    · have read := (writes_escapeChar false quote).readBasic_append
        (escapeBasic false 0 s ++ '"' :: rest)
      simpa [escapeBasic, quote, ih] using read

/-- Between single quotes a string of plain characters reads back. -/
theorem readLiteral_append {s : List Char} (plain : ∀ c ∈ s, isPlain c) (quote : '\'' ∉ s)
    (rest : List Char) : readLiteral (s ++ '\'' :: rest) = some (s, rest) := by
  induction s with
  | nil => simp [readLiteral]
  | cons c s ih =>
    obtain ⟨hc, hs⟩ := List.forall_mem_cons.1 plain
    obtain ⟨hquote, hrest⟩ := not_or.1 (mt List.mem_cons.2 quote)
    simp [readLiteral, Ne.symm hquote, hc, ih hs hrest]

/-! ## Runs of quotes -/

/-- The text begins with exactly so many quotes. -/
def Leads (quote : Char) (count : Nat) (text : List Char) : Prop :=
  ∃ rest, text = List.replicate count quote ++ rest ∧ rest.head? ≠ some quote

theorem leads_zero {q : Char} {text : List Char} (h : text.head? ≠ some q) : Leads q 0 text :=
  ⟨text, rfl, h⟩

theorem Leads.cons {q : Char} {count : Nat} {text : List Char} (h : Leads q count text) :
    Leads q (count + 1) (q :: text) := by
  obtain ⟨rest, rfl, hrest⟩ := h
  exact ⟨rest, rfl, hrest⟩

/-- At most one quote in front is no two of them. -/
theorem Leads.not_two {q : Char} {count : Nat} {text : List Char} (h : Leads q count text)
    (hcount : count ≤ 1) : ¬[q, q] <+: text := by
  obtain ⟨rest, rfl, hrest⟩ := h
  rintro ⟨more, hmore⟩
  match count, hcount with
  | 0, _ =>
    simp only [List.replicate_zero, List.nil_append] at hmore
    simp [← hmore] at hrest
  | 1, _ =>
    simp only [List.replicate_one, List.cons_append, List.nil_append, List.cons.injEq,
      true_and] at hmore
    simp [← hmore] at hrest

/-- The quotes that close a string, and what follows it. -/
def closedBy (quote : Char) (rest : List Char) : List Char := quote :: quote :: quote :: rest

theorem leads_closedBy {q : Char} {rest : List Char} (h : rest.head? ≠ some q) :
    Leads q 3 (closedBy q rest) := ⟨rest, rfl, h⟩

/-- So many quotes in front of the rest of a string are fine behind a run of others: both make at
most two, the three that close the string apart. -/
def Fits (run count : Nat) : Prop := run + count ≤ 2 ∨ 3 ≤ count ∧ run + count ≤ 5

theorem Fits.succ {run count : Nat} (h : Fits (run + 1) count) : Fits run (count + 1) := by
  unfold Fits at *
  omega

theorem Fits.mono {run run' count : Nat} (h : Fits run count) (le : run' ≤ run) :
    Fits run' count := by
  unfold Fits at *
  omega

/-- A reader of strings between three quotes: three in a row close the string, fewer belong to
it. -/
structure Closes (quote : Char) (read : List Char → ReadResult) : Prop where
  closing : ∀ rest, read (closedBy quote rest) = some (readClosing quote rest)
  single : ∀ text, ¬[quote, quote] <+: text → read (quote :: text) = (read text).push quote

namespace Closes

variable {q : Char} {read : List Char → ReadResult}

/-- Up to two quotes more than those that close the string belong to it. -/
theorem closing_replicate (h : Closes q read) {count : Nat} (hcount : count ≤ 2)
    {rest : List Char} (hrest : rest.head? ≠ some q) :
    read (closedBy q (List.replicate count q ++ rest)) = some (List.replicate count q, rest) := by
  rw [h.closing]
  match count, hcount with
  | 0, _ | 1, _ | 2, _ =>
    cases rest with
    | nil => simp [readClosing]
    | cons c rest =>
      have hc : c ≠ q := by simpa using hrest
      simp [readClosing, hc, List.replicate]

theorem read_closedBy (h : Closes q read) {rest : List Char} (hrest : rest.head? ≠ some q) :
    read (closedBy q rest) = some ([], rest) := by
  simpa using h.closing_replicate (Nat.zero_le 2) hrest

/-- One more quote in front of a text is read as part of the string, if it fits there. -/
theorem push_quote (h : Closes q read) {count : Nat} {text : List Char}
    (lead : Leads q count text) (fits : Fits 1 count) :
    read (q :: text) = (read text).push q := by
  unfold Fits at fits
  by_cases few : count ≤ 1
  · exact h.single text (lead.not_two few)
  · -- The text begins with the closing quotes, and one more or none before them.
    obtain ⟨rest, rfl, hrest⟩ := lead
    obtain ⟨extra, rfl⟩ : ∃ extra, count = extra + 3 := ⟨count - 3, by omega⟩
    have shorter := h.closing_replicate (by omega : extra ≤ 2) hrest
    have longer := h.closing_replicate (by omega : extra + 1 ≤ 2) hrest
    simp only [closedBy, List.replicate_succ, List.cons_append] at shorter longer ⊢
    rw [shorter, longer, ReadResult.push_some]

end Closes

/-! ## Between three quotes -/

theorem readMultiBasic_escape {written : List Char} {c : Char} (h : Escape written c)
    (rest : List Char) :
    readMultiBasic false (written ++ rest) = (readMultiBasic false rest).push c := by
  cases h with
  | @letter e _ h =>
    obtain ⟨u, U, blank, newline, carriage⟩ := of_escaped? h
    have line : startsLine ((e :: rest).dropWhile isBlank) = false := by
      simp [List.dropWhile, blank, startsLine, newline, carriage]
    simp only [List.cons_append, List.nil_append]
    rw [readMultiBasic.eq_def]
    simp [u, U, h, line]
  | number h =>
    have line (more : List Char) : startsLine (('u' :: more).dropWhile isBlank) = false := rfl
    simp only [List.cons_append, List.nil_append]
    rw [readMultiBasic.eq_def]
    simp [h, line]

theorem Writes.readMultiBasic_append {written : List Char} {c : Char} (h : Writes true written c)
    (rest : List Char) :
    readMultiBasic false (written ++ rest) = (readMultiBasic false rest).push c := by
  cases h with
  | plain plain quote backslash =>
    obtain ⟨newline, carriage⟩ := of_isPlain plain
    rw [List.singleton_append, readMultiBasic.eq_def]
    simp [quote, backslash, plain, newline, carriage]
  | newline =>
    rw [List.singleton_append, readMultiBasic.eq_def]
    simp
  | escape h => exact readMultiBasic_escape h rest

theorem closes_readMultiBasic : Closes '"' (readMultiBasic false) where
  closing rest := by
    rw [closedBy, readMultiBasic.eq_def]
    simp
  single text two := by
    rw [readMultiBasic.eq_def]
    simp only [↓reduceIte]
    split
    case h_1 => exact absurd ⟨_, rfl⟩ two
    case h_2 => rfl

theorem closes_readMultiLiteral : Closes '\'' readMultiLiteral where
  closing rest := by
    rw [closedBy, readMultiLiteral.eq_def]
    simp
  single text two := by
    rw [readMultiLiteral.eq_def]
    simp only [↓reduceIte]
    split
    case h_1 => exact absurd ⟨_, rfl⟩ two
    case h_2 => rfl

/-- What is left of a string never has too many quotes in front: the third of a run is escaped. -/
theorem leads_escapeBasic {run : Nat} (hrun : run ≤ 2) (s : List Char) {rest : List Char}
    (hrest : rest.head? ≠ some '"') :
    ∃ count, Leads '"' count (escapeBasic true run s ++ closedBy '"' rest) ∧ Fits run count := by
  -- `run` is what the writer counts; it says how many quotes stand in front of what is left.
  induction s generalizing run with
  | nil => exact ⟨3, leads_closedBy hrest, .inr ⟨by omega, by omega⟩⟩
  | cons c s ih =>
    by_cases quote : c = '"'
    · subst quote
      by_cases more : run < 2
      · obtain ⟨count, lead, fits⟩ := ih (by omega : run + 1 ≤ 2)
        exact ⟨count + 1, by simpa [escapeBasic, more] using lead.cons, fits.succ⟩
      · exact ⟨0, leads_zero (by simp [escapeBasic, more]), .inl hrun⟩
    · have head := (writes_escapeChar true quote).head_ne
        (escapeBasic true 0 s ++ closedBy '"' rest)
      exact ⟨0, leads_zero (by simpa [escapeBasic, quote] using head), .inl hrun⟩

/-- The same of a string that has no run of three quotes. -/
theorem leads_literal {q : Char} {run : Nat} {s : List Char} (short : longestRun q run s < 3)
    {rest : List Char} (hrest : rest.head? ≠ some q) :
    ∃ count, Leads q count (s ++ closedBy q rest) ∧ Fits run count := by
  induction s generalizing run with
  | nil =>
    simp only [longestRun] at short
    exact ⟨3, leads_closedBy hrest, .inr ⟨by omega, by omega⟩⟩
  | cons c s ih =>
    by_cases quote : c = q
    · subst quote
      simp only [longestRun, ↓reduceIte] at short
      obtain ⟨count, lead, fits⟩ := ih short
      exact ⟨count + 1, lead.cons, fits.succ⟩
    · simp only [longestRun, if_neg quote] at short
      exact ⟨0, leads_zero (by simpa using quote), .inl (by omega)⟩

/-- Between three double quotes any string reads back. -/
theorem readMultiBasic_escapeBasic {run : Nat} (hrun : run ≤ 2) (s : List Char) {rest : List Char}
    (hrest : rest.head? ≠ some '"') :
    readMultiBasic false (escapeBasic true run s ++ closedBy '"' rest) = some (s, rest) := by
  induction s generalizing run with
  | nil => simpa [escapeBasic] using closes_readMultiBasic.read_closedBy hrest
  | cons c s ih =>
    by_cases quote : c = '"'
    · subst quote
      by_cases more : run < 2
      · obtain ⟨count, lead, fits⟩ := leads_escapeBasic (by omega : run + 1 ≤ 2) s hrest
        have read := closes_readMultiBasic.push_quote lead (fits.mono (by omega))
        rw [ih (by omega)] at read
        simpa [escapeBasic, more] using read
      · have read := readMultiBasic_escape escape_quote (escapeBasic true 0 s ++ closedBy '"' rest)
        rw [ih (by omega)] at read
        simpa [escapeBasic, more] using read
    · have read := (writes_escapeChar true quote).readMultiBasic_append
        (escapeBasic true 0 s ++ closedBy '"' rest)
      rw [ih (by omega)] at read
      simpa [escapeBasic, quote] using read

/-- Between three single quotes a string of plain characters in lines reads back, if no three quotes
in it are in a row. -/
theorem readMultiLiteral_append {run : Nat} {s : List Char}
    (plain : ∀ c ∈ s, isPlain c ∨ c = '\n') (short : longestRun '\'' run s < 3)
    {rest : List Char} (hrest : rest.head? ≠ some '\'') :
    readMultiLiteral (s ++ closedBy '\'' rest) = some (s, rest) := by
  induction s generalizing run with
  | nil => exact closes_readMultiLiteral.read_closedBy hrest
  | cons c s ih =>
    obtain ⟨hc, hs⟩ := List.forall_mem_cons.1 plain
    by_cases quote : c = '\''
    · subst quote
      simp only [longestRun, ↓reduceIte] at short
      obtain ⟨count, lead, fits⟩ := leads_literal short hrest
      have read := closes_readMultiLiteral.push_quote lead (fits.mono (by omega))
      rw [ih hs short] at read
      exact read
    · simp only [longestRun, if_neg quote] at short
      have read := ih hs (by omega : longestRun '\'' 0 s < 3)
      rw [List.cons_append, readMultiLiteral.eq_def]
      obtain plain | rfl := hc
      · obtain ⟨newline, carriage⟩ := of_isPlain plain
        simp [quote, newline, carriage, plain, read]
      · simp [read]

/-! ## All forms -/

theorem Writes.startsLine_append {written : List Char} {c : Char} (h : Writes true written c)
    (newline : c ≠ '\n') (rest : List Char) : startsLine (written ++ rest) = false := by
  cases h with
  | plain plain _ _ => simp [startsLine, of_isPlain plain]
  | newline => contradiction
  | escape h => cases h <;> simp [startsLine]

/-- The line that a string of several lines begins on is passed over, and nothing else is. -/
theorem dropNewline_opening {s body : List Char} (h : '\n' ∉ s → startsLine body = false) :
    dropNewline ((if s.contains '\n' then ['\n'] else []) ++ body) = body := by
  by_cases lines : '\n' ∈ s
  · simp [lines, dropNewline]
  · have one := h lines
    simp only [List.contains_eq_mem, lines, decide_false, Bool.false_eq_true, if_false,
      List.nil_append]
    unfold dropNewline
    split
    case h_1 => simp [startsLine] at one
    case h_2 => simp [startsLine] at one
    case h_3 => rfl

/-- Two quotes in a row would be the empty string or begin a string of several lines. -/
theorem readString_double {text : List Char} (two : ¬['"', '"'] <+: text) :
    readString ('"' :: text) = readBasic text := by
  unfold readString
  split
  case h_1 h => exact absurd ⟨_, (List.cons.inj h).2.symm⟩ two
  case h_2 h => rw [(List.cons.inj h).2]
  all_goals simp_all

theorem readString_single {text : List Char} (two : ¬['\'', '\''] <+: text) :
    readString ('\'' :: text) = readLiteral text := by
  unfold readString
  split
  case h_3 h => exact absurd ⟨_, (List.cons.inj h).2.symm⟩ two
  case h_4 h => rw [(List.cons.inj h).2]
  all_goals simp_all

theorem readString_basic (s : List Char) {rest : List Char} (hrest : rest.head? ≠ some '"') :
    readString (writeAs .basic s ++ rest) = some (s, rest) := by
  have two : ¬['"', '"'] <+: escapeBasic false 0 s ++ '"' :: rest := by
    rintro ⟨more, hmore⟩
    cases s with
    | nil => simp [← (List.cons.inj hmore).2] at hrest
    | cons c s =>
      by_cases quote : c = '"'
      · simp [escapeBasic, quote] at hmore
      · have head := (writes_escapeChar false quote).head_ne (escapeBasic false 0 s ++ '"' :: rest)
        simp only [escapeBasic, if_neg quote, List.append_assoc] at hmore
        simp [← hmore] at head
  simpa [writeAs, readString_double two] using readBasic_escapeBasic s rest

theorem readString_literal {s : List Char} (plain : ∀ c ∈ s, isPlain c) (quote : '\'' ∉ s)
    {rest : List Char} (hrest : rest.head? ≠ some '\'') :
    readString (writeAs .literal s ++ rest) = some (s, rest) := by
  have two : ¬['\'', '\''] <+: s ++ '\'' :: rest := by
    rintro ⟨more, hmore⟩
    cases s with
    | nil => simp [← (List.cons.inj hmore).2] at hrest
    | cons c s => simp [← (List.cons.inj hmore).1] at quote
  simpa [writeAs, readString_single two] using readLiteral_append plain quote rest

theorem readString_multiBasic (s : List Char) {rest : List Char} (hrest : rest.head? ≠ some '"') :
    readString (writeAs .multiBasic s ++ rest) = some (s, rest) := by
  have line (one : '\n' ∉ s) : startsLine (escapeBasic true 0 s ++ closedBy '"' rest) = false := by
    cases s with
    | nil => rfl
    | cons c s =>
      by_cases quote : c = '"'
      · simp [escapeBasic, quote, startsLine]
      · have newline : c ≠ '\n' := by rintro rfl; simp at one
        have first := (writes_escapeChar true quote).startsLine_append newline
          (escapeBasic true 0 s ++ closedBy '"' rest)
        simpa [escapeBasic, quote] using first
  have read := readMultiBasic_escapeBasic (Nat.zero_le 2) s hrest
  rw [← dropNewline_opening line] at read
  simpa [writeAs, closedBy, readString] using read

theorem plain_or_newline {s : List Char} (h : hasControl s = false) :
    ∀ c ∈ s, isPlain c ∨ c = '\n' := by
  intro c hc
  simp only [hasControl, List.any_eq_false, Bool.and_eq_true, Bool.not_eq_true',
    decide_eq_true_eq, not_and, Decidable.not_not] at h
  by_cases plain : isPlain c
  · exact .inl plain
  · exact .inr (h c hc (by simpa using plain))

theorem readString_multiLiteral {s : List Char} (control : hasControl s = false)
    (short : longestRun '\'' 0 s < 3) {rest : List Char} (hrest : rest.head? ≠ some '\'') :
    readString (writeAs .multiLiteral s ++ rest) = some (s, rest) := by
  have line (one : '\n' ∉ s) : startsLine (s ++ closedBy '\'' rest) = false := by
    cases s with
    | nil => rfl
    | cons c s =>
      have newline : c ≠ '\n' := by rintro rfl; simp at one
      have plain := (plain_or_newline control c List.mem_cons_self).resolve_right newline
      simp [startsLine, of_isPlain plain]
  have read := readMultiLiteral_append (plain_or_newline control) short hrest
  rw [← dropNewline_opening line] at read
  simpa [writeAs, closedBy, readString] using read

theorem of_formOf_literal {s : List Char} (h : formOf s = .literal) :
    hasControl s = false ∧ '\'' ∉ s ∧ '\n' ∉ s := by
  unfold formOf at h
  grind

theorem of_formOf_multiLiteral {s : List Char} (h : formOf s = .multiLiteral) :
    hasControl s = false ∧ longestRun '\'' 0 s < 3 := by
  unfold formOf at h
  grind

theorem writeString_eq_cons (s : List Char) :
    ∃ cs, writeString s = '"' :: cs ∨ writeString s = '\'' :: cs := by
  unfold writeString writeAs
  cases formOf s with
  | basic | multiBasic => exact ⟨_, .inl rfl⟩
  | literal | multiLiteral => exact ⟨_, .inr rfl⟩

/-- **A string reads back as it was written**, whatever its characters are. -/
theorem readString_writeString (s : List Char) {rest : List Char}
    (double : rest.head? ≠ some '"') (single : rest.head? ≠ some '\'') :
    readString (writeString s ++ rest) = some (s, rest) := by
  unfold writeString
  cases form : formOf s with
  | basic => exact readString_basic s double
  | literal =>
    obtain ⟨control, quote, newline⟩ := of_formOf_literal form
    have plain : ∀ c ∈ s, isPlain c := fun c hc =>
      (plain_or_newline control c hc).resolve_right fun h => newline (h ▸ hc)
    exact readString_literal plain quote single
  | multiBasic => exact readString_multiBasic s double
  | multiLiteral =>
    obtain ⟨control, short⟩ := of_formOf_multiLiteral form
    exact readString_multiLiteral control short single

/-- The third quote of a run is escaped, a null is written by its number, and a quote at the end stands
in front of those that close the string. -/
example : writeString ['"', '"', '"', '\n', '\x00', '"'] =
    ['"', '"', '"', '\n'] ++ ['"', '"', '\\', '"', '\n'] ++ ['\\', 'u', '0', '0', '0', '0', '"']
      ++ ['"', '"', '"'] := by decide

end Finality.Toml
