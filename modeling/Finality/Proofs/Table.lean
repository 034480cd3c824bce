import Finality.Table

/-!
# More on tables

What `Finality.Table` leaves open about the view `find?`: keys, values and membership are read off
it (`contains_iff`, `mem_values_iff`, `mem_keys_iff`), keys ascend (`ascending_keys`), insertion
and removal change the size as they should (`size_insert`, `size_erase_lt`), and a table can be
cut down to the entries that fit (`find?_filter`) or stripped of some keys (`find?_eraseAll`).
-/

namespace Finality.Table

variable {κ ν ω : Type} [Ord κ] [Std.TransOrd κ] [Std.LawfulEqOrd κ]

/-! ## Membership -/

/-- Tables with the same entries are equal. -/
theorem ext_entries {t u : Table κ ν} (h : ∀ k v, (k, v) ∈ t.entries ↔ (k, v) ∈ u.entries) :
    t = u := by
  refine ext_find? fun k => Option.ext fun v => ?_
  rw [← mem_entries_iff, ← mem_entries_iff, h]

omit [Std.TransOrd κ] [Std.LawfulEqOrd κ] in
theorem contains_iff {t : Table κ ν} {k : κ} :
    t.contains k = true ↔ ∃ v, t.find? k = some v := by
  rw [contains, Option.isSome_iff_exists]

omit [Std.TransOrd κ] [Std.LawfulEqOrd κ] in
theorem contains_eq_false_iff {t : Table κ ν} {k : κ} :
    t.contains k = false ↔ t.find? k = none := by
  rw [contains, Option.isSome_eq_false_iff, Option.isNone_iff_eq_none]

theorem mem_values_iff {t : Table κ ν} {v : ν} : v ∈ t.values ↔ ∃ k, t.find? k = some v := by
  rw [values, List.mem_map]
  constructor
  · rintro ⟨⟨k, w⟩, he, rfl⟩
    exact ⟨k, (t.mem_entries_iff k w).1 he⟩
  · rintro ⟨k, hk⟩
    exact ⟨(k, v), (t.mem_entries_iff k v).2 hk, rfl⟩

theorem mem_keys_iff {t : Table κ ν} {k : κ} : k ∈ t.keys ↔ t.contains k = true := by
  rw [keys, List.mem_map, contains_iff]
  constructor
  · rintro ⟨⟨k, v⟩, he, rfl⟩
    exact ⟨v, (t.mem_entries_iff k v).1 he⟩
  · rintro ⟨v, hv⟩
    exact ⟨(k, v), (t.mem_entries_iff k v).2 hv, rfl⟩

omit [Std.TransOrd κ] in
/-- No key occurs twice. -/
theorem nodup_keys (t : Table κ ν) : t.keys.Nodup := by
  refine List.pairwise_map.2 (t.ascending.imp fun {a b} hab heq => ?_)
  have hself : compare b.1 b.1 = .eq := Std.ReflCmp.compare_self
  rw [heq, hself] at hab
  cases hab

omit [Std.TransOrd κ] [Std.LawfulEqOrd κ] in
/-- Keys ascend strictly. -/
theorem ascending_keys (t : Table κ ν) : t.keys.Pairwise fun a b => compare a b = .lt :=
  List.pairwise_map.2 t.ascending

omit [Std.TransOrd κ] [Std.LawfulEqOrd κ] in
/-- Values that carry their keys are scanned in the order of their keys. -/
theorem map_values_eq_keys {t : Table κ ν} {f : ν → κ} (hf : ∀ e ∈ t.entries, f e.2 = e.1) :
    t.values.map f = t.keys := by
  rw [values, keys, List.map_map]
  exact List.map_congr_left hf

omit [Std.TransOrd κ] in
/-- Values that differ in a function of the key alone do not repeat it. -/
theorem nodup_map_values {t : Table κ ν} {f : ν → κ} (hf : ∀ e ∈ t.entries, f e.2 = e.1) :
    (t.values.map f).Nodup := by
  rw [map_values_eq_keys hf]
  exact t.nodup_keys

/-! ## Size -/

omit [Std.LawfulEqOrd κ] in
/-- Putting a value in adds one entry if the key is new. -/
theorem size_insert (t : Table κ ν) (k : κ) (v : ν) :
    (t.insert k v).size = if t.contains k then t.size else t.size + 1 := by
  have hentries : ∀ {es : List (κ × ν)}, (es.Pairwise fun a b => compare a.1 b.1 = .lt) →
      (insertEntry k v es).length
        = if (lookup k es).isSome then es.length else es.length + 1 := by
    intro es hascending
    induction hascending with
    | nil => rfl
    | @cons e es he _ ih =>
      rw [insertEntry, lookup]
      cases hk : compare k e.1 with
      | lt =>
        have hnone : lookup k es = none :=
          lookup_eq_none_of_lt fun d hd => Std.TransCmp.lt_trans hk (he d hd)
        simp [hnone]
      | eq => rfl
      | gt =>
        simp only [List.length_cons, ih]
        split <;> rfl
  exact hentries t.ascending

omit [Std.LawfulEqOrd κ] in
/-- Putting a value in adds one entry at most. -/
theorem size_insert_le (t : Table κ ν) (k : κ) (v : ν) : (t.insert k v).size ≤ t.size + 1 := by
  rw [size_insert]
  split <;> omega

/-- Removing a key that is there leaves fewer entries. -/
theorem size_erase_lt {t : Table κ ν} {k : κ} (h : t.contains k = true) :
    (t.erase k).size < t.size := by
  obtain ⟨v, hv⟩ := contains_iff.1 h
  refine List.length_filter_lt_length_iff_exists.2 ⟨(k, v), (t.mem_entries_iff k v).2 hv, ?_⟩
  simp [Std.ReflCmp.compare_self]

/-! ## Cutting down -/

/-- The entries that fit. -/
def filter (f : κ → ν → Bool) (t : Table κ ν) : Table κ ν :=
  ⟨t.entries.filter fun e => f e.1 e.2, t.ascending.filter _⟩

theorem find?_filter (f : κ → ν → Bool) (t : Table κ ν) (k : κ) :
    (t.filter f).find? k = (t.find? k).filter (f k) := by
  refine Option.ext fun v => ?_
  rw [← mem_entries_iff, Option.filter_eq_some_iff, ← mem_entries_iff, filter, List.mem_filter]

omit [Std.TransOrd κ] [Std.LawfulEqOrd κ] in
theorem values_filter (f : ν → Bool) (t : Table κ ν) :
    (t.filter fun _ => f).values = t.values.filter f := by
  unfold values filter
  rw [List.filter_map]
  rfl

variable [DecidableEq κ]

/-- The table without these keys. -/
def eraseAll (ks : List κ) (t : Table κ ν) : Table κ ν := ks.foldl erase t

theorem find?_eraseAll (ks : List κ) (t : Table κ ν) (k : κ) :
    (t.eraseAll ks).find? k = if k ∈ ks then none else t.find? k := by
  induction ks generalizing t with
  | nil => simp [eraseAll]
  | cons k' ks ih =>
    have hcons : t.eraseAll (k' :: ks) = (t.erase k').eraseAll ks := rfl
    rw [hcons, ih, find?_erase]
    by_cases hk : k = k' <;> simp [hk]

/-- Erasing the keys of the entries that do not fit leaves those that do. -/
theorem eraseAll_eq_filter {ks : List κ} {f : κ → ν → Bool} {t : Table κ ν}
    (h : ∀ {k v}, t.find? k = some v → (k ∈ ks ↔ f k v = false)) : t.eraseAll ks = t.filter f := by
  refine ext_find? fun k => ?_
  rw [find?_eraseAll, find?_filter]
  cases hv : t.find? k with
  | none => simp
  | some v =>
    have hk := h hv
    by_cases hfits : f k v = true
    · have hnot : k ∉ ks := by simp [hk, hfits]
      rw [if_neg hnot, Option.filter_some, if_pos hfits]
    · have hmem : k ∈ ks := by simp [hk, hfits]
      rw [if_pos hmem, Option.filter_some, if_neg hfits]

/-! ## Changes -/

/-- Putting in what is there changes nothing. -/
theorem insert_eq_self {t : Table κ ν} {k : κ} {v : ν} (h : t.find? k = some v) :
    t.insert k v = t := by
  refine ext_find? fun k' => ?_
  rw [find?_insert]
  split
  · rename_i hkey
    rw [hkey, h]
  · rfl

/-- Entries under two keys are put in in either order. -/
theorem insert_comm (t : Table κ ν) {k k' : κ} (hne : k ≠ k') (v v' : ν) :
    (t.insert k v).insert k' v' = (t.insert k' v').insert k v := by
  refine ext_find? fun k₀ => ?_
  simp only [find?_insert]
  by_cases hk : k₀ = k
  · rw [if_pos hk, if_pos hk, if_neg (hk ▸ hne)]
  · rw [if_neg hk, if_neg hk]

/-- Removing what is not there changes nothing. -/
theorem erase_eq_self {t : Table κ ν} {k : κ} (h : t.find? k = none) : t.erase k = t := by
  refine ext_find? fun k' => ?_
  rw [find?_erase]
  split
  · rename_i hkey
    rw [hkey, h]
  · rfl

theorem contains_insert (t : Table κ ν) (k k' : κ) (v : ν) :
    (t.insert k v).contains k' = true ↔ k' = k ∨ t.contains k' = true := by
  rw [contains, contains, find?_insert]
  split <;> simp_all

theorem contains_erase (t : Table κ ν) (k k' : κ) :
    (t.erase k).contains k' = true ↔ k' ≠ k ∧ t.contains k' = true := by
  rw [contains, contains, find?_erase]
  split <;> simp_all

end Finality.Table
