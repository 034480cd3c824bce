/-!
# Sorted tables

A `Table κ ν` is a finite map kept as a list of entries in strictly ascending order of their keys.
Every scan of a table is therefore in ascending key order, and a table is determined by its
look-ups (`Table.ext_find?`): two tables that answer every key alike are equal as values.

The view of a table is `find?`.  Each operation has one lemma that says what it does to that view:
`find?_empty`, `find?_insert`, `find?_erase`, `find?_map`.
-/

namespace Finality

/-- A finite map, as entries in strictly ascending order of their keys. -/
structure Table (κ ν : Type) [Ord κ] where
  /-- Keys with their values. -/
  entries : List (κ × ν)
  /-- The keys ascend strictly, so no key occurs twice. -/
  ascending : entries.Pairwise fun a b => compare a.1 b.1 = .lt
deriving DecidableEq

namespace Table

variable {κ ν ω : Type} [Ord κ]

/-! ## Operations on the entries -/

/-- Puts a value under a key of an ascending list, in place of the one that is there. -/
def insertEntry (k : κ) (v : ν) : List (κ × ν) → List (κ × ν)
  | [] => [(k, v)]
  | e :: rest =>
    match compare k e.1 with
    | .lt => (k, v) :: e :: rest
    | .eq => (k, v) :: rest
    | .gt => e :: insertEntry k v rest

/-- The value under a key of a list of entries: the first whose key compares equal. -/
def lookup (k : κ) : List (κ × ν) → Option ν
  | [] => none
  | e :: rest =>
    match compare k e.1 with
    | .eq => some e.2
    | _ => lookup k rest

theorem mem_insertEntry {k : κ} {v : ν} {e : κ × ν} {es : List (κ × ν)}
    (h : e ∈ insertEntry k v es) : e = (k, v) ∨ e ∈ es := by
  induction es with
  | nil => exact .inl (by simpa [insertEntry] using h)
  | cons d es ih =>
    rw [insertEntry] at h
    split at h
    · simpa using h
    · rcases List.mem_cons.1 h with rfl | h
      · exact .inl rfl
      · exact .inr (List.mem_cons_of_mem _ h)
    · rcases List.mem_cons.1 h with rfl | h
      · exact .inr (List.mem_cons_self ..)
      · exact (ih h).imp_right (List.mem_cons_of_mem _)

theorem insertEntry_ascending [Std.TransOrd κ] (k : κ) (v : ν) {es : List (κ × ν)}
    (h : es.Pairwise fun a b => compare a.1 b.1 = .lt) :
    (insertEntry k v es).Pairwise fun a b => compare a.1 b.1 = .lt := by
  induction es with
  | nil => simp [insertEntry]
  | cons d es ih =>
    obtain ⟨hd, hes⟩ := List.pairwise_cons.1 h
    rw [insertEntry]
    split
    · rename_i hlt
      refine List.pairwise_cons.2 ⟨fun e he => ?_, h⟩
      rcases List.mem_cons.1 he with rfl | he
      · exact hlt
      · exact Std.TransCmp.lt_trans hlt (hd e he)
    · rename_i heq
      exact List.pairwise_cons.2
        ⟨fun e he => Std.TransCmp.lt_of_eq_of_lt heq (hd e he), hes⟩
    · rename_i hgt
      refine List.pairwise_cons.2 ⟨fun e he => ?_, ih hes⟩
      rcases mem_insertEntry he with rfl | he
      · exact Std.OrientedCmp.gt_iff_lt.1 hgt
      · exact hd e he

theorem lookup_insertEntry [Std.TransOrd κ] [Std.LawfulEqOrd κ] [DecidableEq κ]
    (k k' : κ) (v : ν) (es : List (κ × ν)) :
    lookup k' (insertEntry k v es) = if k' = k then some v else lookup k' es := by
  induction es with
  | nil =>
    by_cases h : k' = k
    · simp [insertEntry, lookup, h, Std.ReflCmp.compare_self]
    · simp [insertEntry, lookup, h]
  | cons d es ih =>
    by_cases h : k' = k
    · subst h
      rw [insertEntry]
      split
      · simp [lookup, Std.ReflCmp.compare_self]
      · simp [lookup, Std.ReflCmp.compare_self]
      · rename_i hgt
        simp [lookup, hgt, ih]
    · rw [insertEntry]
      split
      · simp [lookup, h]
      · rename_i heq
        simp [lookup, h, ← Std.LawfulEqCmp.eq_of_compare heq]
      · rw [lookup, lookup, ih]
        split <;> simp [h]

/-- A key below the first entry of an ascending list has no value. -/
theorem lookup_eq_none_of_lt [Std.TransOrd κ] {k : κ} {es : List (κ × ν)}
    (h : ∀ e ∈ es, compare k e.1 = .lt) : lookup k es = none := by
  induction es with
  | nil => rfl
  | cons d es ih =>
    have hd : compare k d.1 = .lt := h d (List.mem_cons_self ..)
    rw [lookup, hd]
    exact ih fun e he => h e (List.mem_cons_of_mem _ he)

theorem lookup_filter_ne [Std.TransOrd κ] [Std.LawfulEqOrd κ] [DecidableEq κ]
    (k k' : κ) (es : List (κ × ν)) :
    lookup k' (es.filter fun e => compare k e.1 != .eq)
      = if k' = k then none else lookup k' es := by
  induction es with
  | nil => simp [lookup]
  | cons d es ih =>
    by_cases hd : compare k d.1 = .eq
    · have hk := Std.LawfulEqCmp.eq_of_compare hd
      rw [List.filter_cons_of_neg (by simp [hd]), ih]
      by_cases h : k' = k
      · simp [h]
      · simp [lookup, h, ← hk]
    · rw [List.filter_cons_of_pos (by simp [hd]), lookup, lookup, ih]
      by_cases h : k' = k
      · subst h
        split <;> simp_all
      · simp [h]

/-- Two ascending lists that answer every key alike are equal. -/
theorem eq_of_lookup_eq [Std.TransOrd κ] [Std.LawfulEqOrd κ] :
    ∀ {es fs : List (κ × ν)},
      (es.Pairwise fun a b => compare a.1 b.1 = .lt) →
      (fs.Pairwise fun a b => compare a.1 b.1 = .lt) →
      (∀ k, lookup k es = lookup k fs) → es = fs
  | [], [], _, _, _ => rfl
  | [], f :: fs, _, _, h => by
    have := h f.1
    simp [lookup, Std.ReflCmp.compare_self] at this
  | e :: es, [], _, _, h => by
    have := h e.1
    simp [lookup, Std.ReflCmp.compare_self] at this
  | e :: es, f :: fs, he, hf, h => by
    obtain ⟨he', hes⟩ := List.pairwise_cons.1 he
    obtain ⟨hf', hfs⟩ := List.pairwise_cons.1 hf
    have hef : compare e.1 f.1 = .eq := by
      cases hc : compare e.1 f.1 with
      | eq => rfl
      | lt =>
        have h1 : lookup e.1 (f :: fs) = none := by
          refine lookup_eq_none_of_lt fun g hg => ?_
          rcases List.mem_cons.1 hg with rfl | hg
          · exact hc
          · exact Std.TransCmp.lt_trans hc (hf' g hg)
        have := h e.1
        rw [h1] at this
        simp [lookup, Std.ReflCmp.compare_self] at this
      | gt =>
        have hlt : compare f.1 e.1 = .lt := Std.OrientedCmp.gt_iff_lt.1 hc
        have h1 : lookup f.1 (e :: es) = none := by
          refine lookup_eq_none_of_lt fun g hg => ?_
          rcases List.mem_cons.1 hg with rfl | hg
          · exact hlt
          · exact Std.TransCmp.lt_trans hlt (he' g hg)
        have := h f.1
        rw [h1] at this
        simp [lookup, Std.ReflCmp.compare_self] at this
    have hkey : e.1 = f.1 := Std.LawfulEqCmp.eq_of_compare hef
    have hval : e.2 = f.2 := by
      have := h e.1
      simpa [lookup, Std.ReflCmp.compare_self, hef] using this
    have hhead : e = f := Prod.ext hkey hval
    subst hhead
    congr 1
    refine eq_of_lookup_eq hes hfs fun k => ?_
    by_cases hk : compare k e.1 = .eq
    · have := Std.LawfulEqCmp.eq_of_compare hk
      subst this
      rw [lookup_eq_none_of_lt he', lookup_eq_none_of_lt hf']
    · have := h k
      rw [lookup, lookup] at this
      split at this
      · contradiction
      · exact this

/-! ## Tables -/

/-- The table without entries. -/
def empty : Table κ ν := ⟨[], List.Pairwise.nil⟩

instance : EmptyCollection (Table κ ν) := ⟨empty⟩
instance : Inhabited (Table κ ν) := ⟨empty⟩

/-- The value under a key. -/
def find? (t : Table κ ν) (k : κ) : Option ν := lookup k t.entries

/-- Whether a key has a value. -/
def contains (t : Table κ ν) (k : κ) : Bool := (t.find? k).isSome

/-- Puts a value under a key, in place of the one that is there. -/
def insert [Std.TransOrd κ] (t : Table κ ν) (k : κ) (v : ν) : Table κ ν :=
  ⟨insertEntry k v t.entries, insertEntry_ascending k v t.ascending⟩

/-- Removes a key with its value. -/
def erase (t : Table κ ν) (k : κ) : Table κ ν :=
  ⟨t.entries.filter fun e => compare k e.1 != .eq, t.ascending.filter _⟩

/-- Changes every value by a function of its key and itself. -/
def map (f : κ → ν → ω) (t : Table κ ν) : Table κ ω :=
  ⟨t.entries.map fun e => (e.1, f e.1 e.2), List.pairwise_map.2 t.ascending⟩

/-- The keys, ascending. -/
def keys (t : Table κ ν) : List κ := t.entries.map (·.1)

/-- The values, in ascending order of their keys. -/
def values (t : Table κ ν) : List ν := t.entries.map (·.2)

/-- The number of entries. -/
def size (t : Table κ ν) : Nat := t.entries.length

@[simp] theorem find?_empty (k : κ) : (∅ : Table κ ν).find? k = none := rfl

theorem find?_insert [Std.TransOrd κ] [Std.LawfulEqOrd κ] [DecidableEq κ]
    (t : Table κ ν) (k k' : κ) (v : ν) :
    (t.insert k v).find? k' = if k' = k then some v else t.find? k' :=
  lookup_insertEntry k k' v t.entries

theorem find?_erase [Std.TransOrd κ] [Std.LawfulEqOrd κ] [DecidableEq κ]
    (t : Table κ ν) (k k' : κ) :
    (t.erase k).find? k' = if k' = k then none else t.find? k' :=
  lookup_filter_ne k k' t.entries

theorem find?_map [Std.LawfulEqOrd κ] (f : κ → ν → ω) (t : Table κ ν) (k : κ) :
    (t.map f).find? k = (t.find? k).map (f k) := by
  obtain ⟨es, hes⟩ := t
  change lookup k (es.map fun e => (e.1, f e.1 e.2)) = (lookup k es).map (f k)
  clear hes
  induction es with
  | nil => rfl
  | cons e es ih =>
    rw [List.map_cons, lookup, lookup]
    split
    · rename_i h
      have := Std.LawfulEqCmp.eq_of_compare h
      subst this
      simp_all
    · simp_all

/-- A table is determined by its look-ups. -/
theorem ext_find? [Std.TransOrd κ] [Std.LawfulEqOrd κ] {t u : Table κ ν}
    (h : ∀ k, t.find? k = u.find? k) : t = u := by
  obtain ⟨es, hes⟩ := t
  obtain ⟨fs, hfs⟩ := u
  have : es = fs := eq_of_lookup_eq hes hfs h
  subst this
  rfl

/-- The entries are exactly the pairs that look-ups find. -/
theorem mem_entries_iff [Std.TransOrd κ] [Std.LawfulEqOrd κ] (t : Table κ ν) (k : κ) (v : ν) :
    (k, v) ∈ t.entries ↔ t.find? k = some v := by
  obtain ⟨es, hes⟩ := t
  change (k, v) ∈ es ↔ lookup k es = some v
  induction es with
  | nil => simp [lookup]
  | cons e es ih =>
    obtain ⟨he, hes⟩ := List.pairwise_cons.1 hes
    rw [lookup]
    split
    · rename_i h
      have hk := Std.LawfulEqCmp.eq_of_compare h
      subst hk
      constructor
      · intro hm
        rcases List.mem_cons.1 hm with heq | hm
        · exact congrArg (fun p => some p.2) heq.symm
        · have := he _ hm
          simp [Std.ReflCmp.compare_self] at this
      · intro hv
        cases Option.some.inj hv
        exact List.mem_cons_self ..
    · rename_i h
      rw [← ih hes, List.mem_cons]
      constructor
      · rintro (rfl | hm)
        · exact absurd Std.ReflCmp.compare_self h
        · exact hm
      · exact .inr

end Table

end Finality
