import Finality.Proofs.Store.Keys

/-!
# What a scan meets

The bound of a scan is found by taking bytes 255 off the end and raising the byte before them by
one: `upperBound?_concat_top` and `upperBound?_concat` are the two steps, and
`upperBound?_eq_some_iff` is where they lead.  There is no bound just for byte strings made of 255
alone (`upperBound?_eq_none_iff`).

The bound is the least byte string above all that start with the given one
(`upperBound?_isLeast`), and so a scan meets exactly the entries whose keys start with it
(`scan_meets_exactly_prefixed`).
-/

namespace Finality

/-! ## The bound -/

/-- A byte 255 at the end is taken off. -/
theorem upperBound?_concat_top (start : Bytes) :
    upperBound? (start ++ [255]) = upperBound? start := by
  induction start with
  | nil => rfl
  | cons b start ih => rw [List.cons_append, upperBound?, upperBound?, ih]

/-- Any other byte at the end is raised by one. -/
theorem upperBound?_concat (start : Bytes) {b : UInt8} (htop : b ≠ 255) :
    upperBound? (start ++ [b]) = some (start ++ [b + 1]) := by
  induction start with
  | nil => simp [upperBound?, htop]
  | cons c start ih => simp [upperBound?, ih]

/-- All bytes 255 at the end are taken off. -/
theorem upperBound?_append_replicate (start : Bytes) (n : Nat) :
    upperBound? (start ++ List.replicate n 255) = upperBound? start := by
  induction n with
  | zero => rw [List.replicate_zero, List.append_nil]
  | succ n ih => rw [List.replicate_succ', ← List.append_assoc, upperBound?_concat_top, ih]

/-- A byte string is made of 255 alone, or some other byte is the last one before them. -/
theorem eq_replicate_or_split (start : Bytes) :
    (∃ n, start = List.replicate n 255) ∨
      ∃ front b n, b ≠ 255 ∧ start = front ++ b :: List.replicate n 255 := by
  induction start with
  | nil => exact .inl ⟨0, rfl⟩
  | cons c start ih =>
    rcases ih with ⟨n, rfl⟩ | ⟨front, b, n, hb, rfl⟩
    · by_cases hc : c = 255
      · subst hc
        exact .inl ⟨n + 1, List.replicate_succ.symm⟩
      · exact .inr ⟨[], c, n, hc, rfl⟩
    · exact .inr ⟨c :: front, b, n, hb, rfl⟩

theorem upperBound?_replicate (n : Nat) : upperBound? (List.replicate n 255) = none :=
  upperBound?_append_replicate [] n

theorem upperBound?_split (front : Bytes) {b : UInt8} (hb : b ≠ 255) (n : Nat) :
    upperBound? (front ++ b :: List.replicate n 255) = some (front ++ [b + 1]) := by
  have hsplit : front ++ b :: List.replicate n 255 = (front ++ [b]) ++ List.replicate n 255 := by
    simp
  rw [hsplit, upperBound?_append_replicate, upperBound?_concat front hb]

/-- **There is no bound** exactly for byte strings made of 255 alone. -/
theorem upperBound?_eq_none_iff {start : Bytes} :
    upperBound? start = none ↔ ∀ b ∈ start, b = 255 := by
  rcases eq_replicate_or_split start with ⟨n, rfl⟩ | ⟨front, b, n, hb, rfl⟩
  · exact iff_of_true (upperBound?_replicate n) fun b hb => List.eq_of_mem_replicate hb
  · rw [upperBound?_split front hb]
    refine iff_of_false (by simp) fun hall => hb (hall b ?_)
    simp

/-- **The bound** is what is left without the bytes 255 at the end, its last byte raised by one. -/
theorem upperBound?_eq_some_iff {start upper : Bytes} :
    upperBound? start = some upper ↔
      ∃ front b n, b ≠ 255 ∧ start = front ++ b :: List.replicate n 255 ∧
        upper = front ++ [b + 1] := by
  constructor
  · intro hupper
    rcases eq_replicate_or_split start with ⟨n, rfl⟩ | ⟨front, b, n, hb, rfl⟩
    · rw [upperBound?_replicate] at hupper
      cases hupper
    · rw [upperBound?_split front hb] at hupper
      exact ⟨front, b, n, hb, rfl, (Option.some.inj hupper).symm⟩
  · rintro ⟨front, b, n, hb, rfl, rfl⟩
    exact upperBound?_split front hb n

/-! ## The range -/

/-- At or above the beginning and below its bound, if there is one, is where the keys are that start
with it. -/
theorem mem_range_iff {start key : Bytes} :
    ((compare start key).isLE = true ∧
        ∀ upper ∈ upperBound? start, compare key upper = .lt) ↔ start <+: key := by
  rw [← inScanRange_iff, inScanRange, Bool.and_eq_true]
  cases upperBound? start <;> simp

/-- **The bound is the least** byte string above all that start with the given one. -/
theorem upperBound?_isLeast {start upper : Bytes} (hupper : upperBound? start = some upper) :
    (∀ key, start <+: key → compare key upper = .lt) ∧
      ∀ other, (∀ key, start <+: key → compare key other = .lt) →
        (compare upper other).isLE = true := by
  constructor
  · intro key hkey
    exact (mem_range_iff.2 hkey).2 upper hupper
  · intro other hother
    cases hcompare : compare upper other with
    | lt => rfl
    | eq => rfl
    | gt =>
      -- What is below the bound starts with the bytes, and so would be above itself.
      have hbelow : compare other upper = .lt := Std.OrientedCmp.gt_iff_lt.1 hcompare
      have habove : compare start other = .lt := hother start (List.prefix_refl start)
      have hstart : start <+: other := by
        refine mem_range_iff.1 ⟨by rw [habove]; rfl, fun u hu => ?_⟩
        cases hupper.symm.trans hu
        exact hbelow
      have hself := hother other hstart
      rw [Std.compare_self] at hself
      cases hself

/-! ## Scans -/

variable {ν : Type}

theorem mem_scan_iff {t : Table Bytes ν} {start key : Bytes} {v : ν} :
    (key, v) ∈ t.scan start ↔ t.find? key = some v ∧ start <+: key := by
  rw [Table.scan, List.mem_filter, Table.mem_entries_iff, inScanRange_iff]

/-- A scan meets keys in ascending order, and none of them twice. -/
theorem ascending_scan (t : Table Bytes ν) (start : Bytes) :
    (t.scan start).Pairwise fun d e => compare d.1 e.1 = .lt :=
  t.ascending.filter _

/-- **Scans are exact.**  Whatever keys a table has and whatever bytes a scan is given, it meets
exactly the entries whose keys start with these bytes, each once and in ascending order.  It does so
because a key starts with them just if it is at or above them and below their bound; the bound is
what is left of them without the bytes 255 at the end, the last byte raised by one, and only bytes
that are all 255 have none. -/
theorem scan_meets_exactly_prefixed (t : Table Bytes ν) (start : Bytes) :
    (∀ key v, (key, v) ∈ t.scan start ↔ t.find? key = some v ∧ start <+: key) ∧
    ((t.scan start).Pairwise fun d e => compare d.1 e.1 = .lt) ∧
    (∀ key, ((compare start key).isLE = true ∧
        ∀ upper ∈ upperBound? start, compare key upper = .lt) ↔ start <+: key) ∧
    (upperBound? start = none ↔ ∀ b ∈ start, b = 255) ∧
    (∀ upper, upperBound? start = some upper ↔
      ∃ front b n, b ≠ 255 ∧ start = front ++ b :: List.replicate n 255 ∧
        upper = front ++ [b + 1]) :=
  ⟨fun _ _ => mem_scan_iff, ascending_scan t start, fun _ => mem_range_iff,
    upperBound?_eq_none_iff, fun _ => upperBound?_eq_some_iff⟩

/-- With the beginning 1, 255 a scan leaves out the keys that its bound 2 and its neighbours begin,
and takes the beginning itself. -/
example :
    let keys : List Bytes := [[], [1], [1, 254], [1, 255], [1, 255, 0], [1, 255, 255], [2], [2, 0]]
    let t : Table Bytes Nat := keys.foldl (fun t key => t.insert key key.length) ∅
    (t.scan [1, 255]).map (·.1) = [[1, 255], [1, 255, 0], [1, 255, 255]] := by
  decide

end Finality
