import Finality.Toml.Number

/-!
# Numbers read back

A word at the end of a line is read as the value it is (`readWord_append`), and that of a number in
decimal digits is the number, if it fits 64 bits with a sign (`ofWord?_toDigits`).

A number is no date, because a date has a hyphen, no time, because a time has a colon
(`afterDate?_eq_none`, `afterTime?_eq_none`), and no float, because something other than digits
follows the whole part of one (`isFloat_eq_false`).
-/

namespace Finality.Toml

/-! ## Digits -/

theorem digit?_isDigit {c : Char} (h : c.isDigit) :
    digit? 10 c = some (c.toNat - '0'.toNat) := by
  have bounds : '0' ≤ c ∧ c ≤ '9' := by simpa [Char.isDigit, Char.le_def] using h
  have upper : c.toNat ≤ 57 := bounds.2
  simp [digit?, Bytes.hexValue?, bounds]
  omega

theorem digits?_isDigit {word : List Char} (digits : ∀ c ∈ word, c.isDigit) (ne : word ≠ []) :
    digits? 10 word = some (word.map fun c => c.toNat - '0'.toNat) := by
  induction word using digits?.induct with
  | case1 => exact absurd rfl ne
  | case2 c => simp [digits?, digit?_isDigit (digits c (by simp))]
  | case3 c rest => simp at digits
  | case4 c rest more underscore ih =>
    have first := digit?_isDigit (digits c (by simp))
    have others := ih (fun x hx => digits x (by simp [hx])) more
    rw [digits?.eq_4 _ _ _ more underscore, first, others]
    rfl

/-- The digits of a positive number have no zero in front. -/
theorem toDigits_head_pos {n : Nat} (h : 0 < n) :
    ∃ d rest, Nat.toDigits 10 n = d :: rest ∧ '0'.toNat < d.toNat := by
  induction n using Nat.strongRecOn with
  | ind n ih =>
    by_cases small : n < 10
    · have positive : ∀ n < 10, 0 < n → '0'.toNat < n.digitChar.toNat := by decide
      exact ⟨n.digitChar, [], Nat.toDigits_of_lt_base small, positive n small h⟩
    · obtain ⟨d, rest, digits, positive⟩ := ih (n / 10) (by omega) (by omega)
      refine ⟨d, rest ++ [(n % 10).digitChar], ?_, positive⟩
      rw [Nat.toDigits_of_base_le (by decide) (by omega), digits, List.cons_append]

theorem isDigit_toDigits (n : Nat) : ∀ c ∈ Nat.toDigits 10 n, c.isDigit :=
  fun _ => Nat.isDigit_of_mem_toDigits (by decide) (by decide)

theorem decimal?_toDigits (n : Nat) : decimal? (Nat.toDigits 10 n) = some n := by
  have read := digits?_isDigit (isDigit_toDigits n) Nat.toDigits_ne_nil
  have value : ofDigits 10 ((Nat.toDigits 10 n).map fun c => c.toNat - '0'.toNat) = n := by
    rw [ofDigits, List.foldl_map]
    exact Nat.ofDigitChars_eq_foldl.symm.trans Nat.ofDigitChars_ten_toDigits
  unfold decimal?
  rw [read, Option.bind_eq_bind, Option.bind_some]
  obtain rfl | positive := Nat.eq_zero_or_pos n
  · rfl
  · obtain ⟨d, rest, hd, hpos⟩ := toDigits_head_pos positive
    split
    case h_1 zero => simp only [hd, List.map_cons, List.cons.injEq] at zero; omega
    case h_2 => rw [value]; rfl

/-! ## What numbers are not -/

theorem twoDigits?_suffix {low high n : Nat} {text rest : List Char}
    (h : twoDigits? low high text = some (n, rest)) : rest <:+ text := by
  unfold twoDigits? at h
  split at h
  case h_1 a b more =>
    simp only [Option.bind_eq_bind, Option.bind_eq_some_iff] at h
    obtain ⟨_, -, _, -, h⟩ := h
    split at h
    · obtain ⟨-, rfl⟩ := Prod.mk.inj (Option.some.inj h)
      exact ⟨[a, b], rfl⟩
    · cases h
  case h_2 => cases h

theorem afterDate?_eq_none {word : List Char} (h : '-' ∉ word) : afterDate? word = none := by
  unfold afterDate?
  cases century : twoDigits? 0 99 word with
  | none => rfl
  | some r =>
    cases year : twoDigits? 0 99 r.2 with
    | none => simp [year]
    | some r' =>
      have hyphen : '-' ∉ r'.2 := fun mem =>
        h ((twoDigits?_suffix century).mem ((twoDigits?_suffix year).mem mem))
      simp only [Option.bind_eq_bind, Option.bind_some, year]
      split
      case h_1 eq => simp [eq] at hyphen
      case h_2 => rfl

theorem afterMinutes?_eq_none {word : List Char} (h : ':' ∉ word) : afterMinutes? word = none := by
  unfold afterMinutes?
  cases hours : twoDigits? 0 23 word with
  | none => rfl
  | some r =>
    have colon : ':' ∉ r.2 := fun mem => h ((twoDigits?_suffix hours).mem mem)
    simp only [Option.bind_eq_bind, Option.bind_some]
    split
    case h_1 eq => simp [eq] at colon
    case h_2 => rfl

theorem afterTime?_eq_none {word : List Char} (h : ':' ∉ word) : afterTime? word = none := by
  simp [afterTime?, afterMinutes?_eq_none h]

theorem splitSign_isDigit {word : List Char} (digits : ∀ c ∈ word, c.isDigit) :
    splitSign word = (false, word) := by
  unfold splitSign
  split
  case h_1 => simp at digits
  case h_2 => simp at digits
  case h_3 => rfl

theorem isFloat_eq_false {word : List Char} (digits : ∀ c ∈ word, c.isDigit) :
    isFloat word = false := by
  have all : ∀ c ∈ word, isDigitOrUnderscore c := fun c hc => by
    simp [isDigitOrUnderscore, digits c hc]
  have whole : word.dropWhile isDigitOrUnderscore = [] := by
    rw [← List.append_nil word, List.dropWhile_append_of_pos all, List.dropWhile_nil]
  have infinite : word ≠ ['i', 'n', 'f'] := by rintro rfl; simp at digits
  have nan : word ≠ ['n', 'a', 'n'] := by rintro rfl; simp at digits
  simp [isFloat, splitSign_isDigit digits, infinite, nan, whole]

theorem isDatetime_eq_false {word : List Char} (digits : ∀ c ∈ word, c.isDigit) :
    isDatetime word = false := by
  have hyphen : '-' ∉ word := fun mem => by simpa using digits _ mem
  have colon : ':' ∉ word := fun mem => by simpa using digits _ mem
  simp [isDatetime, isDate, afterDate?_eq_none hyphen, afterTime?_eq_none colon]

/-! ## Words -/

theorem integer?_toDigits {n : Nat} (h : (n : Int) ≤ Int64.maxValue.toInt) :
    integer? (Nat.toDigits 10 n) = some (n : Int) := by
  have digits := isDigit_toDigits n
  have value : ((decimal? (Nat.toDigits 10 n)).map (signed false)) = some (n : Int) := by
    simp [decimal?_toDigits, signed]
  unfold integer?
  split
  case h_1 hex => simp [hex] at digits
  case h_2 octal => simp [octal] at digits
  case h_3 binary => simp [binary] at digits
  case h_4 => simp [splitSign_isDigit digits, value, h]

theorem ofWord?_toDigits {n : Nat} (h : (n : Int) ≤ Int64.maxValue.toInt) :
    Value.ofWord? (Nat.toDigits 10 n) = some (.integer n) := by
  have digits := isDigit_toDigits n
  have yes : Nat.toDigits 10 n ≠ ['t', 'r', 'u', 'e'] := fun eq => by simp [eq] at digits
  have no : Nat.toDigits 10 n ≠ ['f', 'a', 'l', 's', 'e'] := fun eq => by simp [eq] at digits
  simp [Value.ofWord?, yes, no, isDatetime_eq_false digits, isFloat_eq_false digits,
    integer?_toDigits h]

/-- A word at the end of a line is read as the value it is. -/
theorem readWord_append {word : List Char} {v : Value} (chars : ∀ c ∈ word, isWordChar c)
    (value : Value.ofWord? word = some v) (rest : List Char) :
    readWord (word ++ '\n' :: rest) = some (v, '\n' :: rest) := by
  have taken : (word ++ '\n' :: rest).takeWhile isWordChar = word := by
    simp [List.takeWhile_append_of_pos chars, isWordChar]
  have left : (word ++ '\n' :: rest).dropWhile isWordChar = '\n' :: rest := by
    simp [List.dropWhile_append_of_pos chars, isWordChar]
  simp [readWord, taken, left, value]

theorem isWordChar_toDigits (n : Nat) : ∀ c ∈ Nat.toDigits 10 n, isWordChar c := by
  intro c hc
  simp [isWordChar, Char.isAlphanum, isDigit_toDigits n c hc]

end Finality.Toml
