import Finality.Proofs.Store.Keys

/-!
# Tables laid out as bytes

`Table.index` lays a table out as one of byte strings, with one entry for each of its entries.
Records and the index entries that go with them are both such layouts of the same table, under
different keys.

If the bytes of an entry determine its key, the layout has exactly those entries (`find?_index_iff`,
`size_index`); it changes by one entry when the table does (`index_insert`, `index_erase`); and
scanning it is picking entries from the table, in the table's order, if all keys that the scan meets
are in that order (`scan_index`).
-/

namespace Finality.Table

variable {κ ν : Type} [Ord κ] [Std.TransOrd κ] [Std.LawfulEqOrd κ]

/-! ## Layouts of a table -/

/-- The table of byte strings with one entry for each entry of a table. -/
def index (key value : κ → ν → Bytes) (t : Table κ ν) : Table Bytes Bytes :=
  t.entries.foldr (fun e u => u.insert (key e.1 e.2) (value e.1 e.2)) ∅

omit [Ord κ] [Std.TransOrd κ] [Std.LawfulEqOrd κ] in
/-- The bytes under which an entry is laid out determine its key. -/
def Distinguishes (key : κ → ν → Bytes) : Prop :=
  ∀ ⦃k v k' v'⦄, key k v = key k' v' → k = k'

variable {key value : κ → ν → Bytes} {t : Table κ ν}

omit [Ord κ] [Std.TransOrd κ] [Std.LawfulEqOrd κ] in
theorem find?_foldr_insert (hkey : Distinguishes key) {b w : Bytes} :
    ∀ {es : List (κ × ν)}, (es.Pairwise fun d e => d.1 ≠ e.1) →
      ((es.foldr (fun e u => u.insert (key e.1 e.2) (value e.1 e.2))
          (∅ : Table Bytes Bytes)).find? b = some w ↔
        ∃ e ∈ es, key e.1 e.2 = b ∧ value e.1 e.2 = w) := by
  intro es
  induction es with
  | nil => simp
  | cons d es ih =>
    intro hdistinct
    obtain ⟨hd, hes⟩ := List.pairwise_cons.1 hdistinct
    rw [List.foldr_cons, find?_insert]
    split
    · rename_i hb
      constructor
      · intro hw
        exact ⟨d, List.mem_cons_self .., hb.symm, Option.some.inj hw⟩
      · rintro ⟨e, he, hb', rfl⟩
        rcases List.mem_cons.1 he with rfl | he
        · rfl
        · exact absurd (hkey (hb'.trans hb)).symm (hd e he)
    · rename_i hb
      rw [ih hes]
      constructor
      · rintro ⟨e, he, h⟩
        exact ⟨e, List.mem_cons_of_mem _ he, h⟩
      · rintro ⟨e, he, hb', h⟩
        rcases List.mem_cons.1 he with rfl | he
        · exact absurd hb'.symm hb
        · exact ⟨e, he, hb', h⟩

/-- **The layout has the entries of the table**, each under its bytes, and no others. -/
theorem find?_index_iff (hkey : Distinguishes key) {b w : Bytes} :
    (t.index key value).find? b = some w ↔
      ∃ k v, t.find? k = some v ∧ key k v = b ∧ value k v = w := by
  have hdistinct : t.entries.Pairwise fun d e => d.1 ≠ e.1 := List.pairwise_map.1 t.nodup_keys
  rw [index, find?_foldr_insert hkey hdistinct]
  constructor
  · rintro ⟨⟨k, v⟩, he, h⟩
    exact ⟨k, v, (t.mem_entries_iff k v).1 he, h⟩
  · rintro ⟨k, v, hv, h⟩
    exact ⟨(k, v), (t.mem_entries_iff k v).2 hv, h⟩

/-- Where the bytes do not depend on the value, looking up in the layout is looking up in the
table. -/
theorem find?_index {toBytes : κ → Bytes}
    (hkey : Distinguishes fun (k : κ) (_ : ν) => toBytes k) (k : κ) :
    (t.index (fun k _ => toBytes k) value).find? (toBytes k) = (t.find? k).map (value k) := by
  refine Option.ext fun w => ?_
  rw [find?_index_iff hkey, Option.map_eq_some_iff]
  constructor
  · rintro ⟨k', v, hv, hbytes, rfl⟩
    cases @hkey k' v k v hbytes
    exact ⟨v, hv, rfl⟩
  · rintro ⟨v, hv, rfl⟩
    exact ⟨k, v, hv, rfl, rfl⟩

omit [Std.TransOrd κ] in
/-- No entry is lost. -/
theorem size_index (hkey : Distinguishes key) :
    (t.index key value).size = t.size := by
  have hentries : ∀ {es : List (κ × ν)}, (es.Pairwise fun d e => d.1 ≠ e.1) →
      (es.foldr (fun e u => u.insert (key e.1 e.2) (value e.1 e.2)) (∅ : Table Bytes Bytes)).size
        = es.length := by
    intro es
    induction es with
    | nil => exact fun _ => rfl
    | cons d es ih =>
      intro hdistinct
      obtain ⟨hd, hes⟩ := List.pairwise_cons.1 hdistinct
      have hnew : (es.foldr (fun e u => u.insert (key e.1 e.2) (value e.1 e.2))
          (∅ : Table Bytes Bytes)).contains (key d.1 d.2) = false := by
        refine contains_eq_false_iff.2 (Option.eq_none_iff_forall_ne_some.2 fun w hw => ?_)
        obtain ⟨e, he, hb, -⟩ := (find?_foldr_insert hkey hes).1 hw
        exact hd e he (hkey hb).symm
      rw [List.foldr_cons, size_insert, hnew, ih hes]
      rfl
  exact hentries (List.pairwise_map.1 t.nodup_keys)

variable [DecidableEq κ]

/-- Putting an entry in puts one in, if its bytes are the same as before or new. -/
theorem index_insert (hkey : Distinguishes key) {k : κ} {v : ν}
    (hsame : ∀ u, t.find? k = some u → key k u = key k v) :
    (t.insert k v).index key value = (t.index key value).insert (key k v) (value k v) := by
  refine ext_find? fun b => Option.ext fun w => ?_
  rw [find?_index_iff hkey, find?_insert]
  split
  · rename_i hb
    constructor
    · rintro ⟨k', v', hv', hb', rfl⟩
      cases hkey (hb'.trans hb)
      rw [find?_insert, if_pos rfl] at hv'
      cases hv'
      rfl
    · intro hw
      exact ⟨k, v, by rw [find?_insert, if_pos rfl], hb.symm, Option.some.inj hw⟩
  · rename_i hb
    rw [find?_index_iff hkey]
    constructor
    · rintro ⟨k', v', hv', hb', rfl⟩
      rw [find?_insert] at hv'
      split at hv'
      · rename_i hk
        cases hv'
        rw [hk] at hb'
        exact absurd hb'.symm hb
      · exact ⟨k', v', hv', hb', rfl⟩
    · rintro ⟨k', v', hv', hb', rfl⟩
      refine ⟨k', v', ?_, hb', rfl⟩
      rw [find?_insert, if_neg]
      · exact hv'
      · rintro rfl
        rw [hsame v' hv'] at hb'
        exact hb hb'.symm

/-- Putting a new entry in puts one in. -/
theorem index_insert_new (hkey : Distinguishes key) {k : κ} (hnew : t.find? k = none) (v : ν) :
    (t.insert k v).index key value = (t.index key value).insert (key k v) (value k v) := by
  refine index_insert hkey fun u hu => ?_
  rw [hnew] at hu
  cases hu

/-- Removing an entry removes one. -/
theorem index_erase (hkey : Distinguishes key) {k : κ} {v : ν}
    (hv : t.find? k = some v) :
    (t.erase k).index key value = (t.index key value).erase (key k v) := by
  refine ext_find? fun b => Option.ext fun w => ?_
  rw [find?_index_iff hkey, find?_erase]
  split
  · rename_i hb
    refine iff_of_false ?_ (by simp)
    rintro ⟨k', v', hv', hb', rfl⟩
    cases hkey (hb'.trans hb)
    rw [find?_erase, if_pos rfl] at hv'
    cases hv'
  · rename_i hb
    rw [find?_index_iff hkey]
    constructor
    · rintro ⟨k', v', hv', hb', rfl⟩
      rw [find?_erase] at hv'
      split at hv'
      · cases hv'
      · exact ⟨k', v', hv', hb', rfl⟩
    · rintro ⟨k', v', hv', hb', rfl⟩
      refine ⟨k', v', ?_, hb', rfl⟩
      rw [find?_erase, if_neg]
      · exact hv'
      · rintro rfl
        cases hv.symm.trans hv'
        exact hb hb'.symm

omit [DecidableEq κ] in
/-- **Scanning a layout** is picking the entries of the table whose bytes begin like this, in the
order of the table, if their bytes are in that order. -/
theorem scan_index (hkey : Distinguishes key) (start : Bytes) (fits : κ → ν → Bool)
    (hstart : ∀ k v, start <+: key k v ↔ fits k v = true)
    (horder : ∀ {k v k' v'}, fits k v = true → fits k' v' = true → compare k k' = .lt →
      compare (key k v) (key k' v') = .lt) :
    (t.index key value).scan start
      = (t.entries.filter fun e => fits e.1 e.2).map fun e => (key e.1 e.2, value e.1 e.2) := by
  have hscan := (t.index key value).ascending.filter fun e => inScanRange start e.1
  have hpicked : ((t.entries.filter fun e => fits e.1 e.2).map
      fun e => (key e.1 e.2, value e.1 e.2)).Pairwise fun d e => compare d.1 e.1 = .lt := by
    refine List.pairwise_map.2 ?_
    refine (t.ascending.filter _).imp_of_mem fun {d e} hd he hlt => ?_
    exact horder (List.mem_filter.1 hd).2 (List.mem_filter.1 he).2 hlt
  refine congrArg entries (ext_entries (t := ⟨_, hscan⟩) (u := ⟨_, hpicked⟩) fun b w => ?_)
  rw [List.mem_filter, mem_entries_iff, find?_index_iff hkey, inScanRange_iff, List.mem_map]
  constructor
  · rintro ⟨⟨k, v, hv, rfl, rfl⟩, hb⟩
    exact ⟨(k, v), List.mem_filter.2 ⟨(t.mem_entries_iff k v).2 hv, (hstart k v).1 hb⟩, rfl⟩
  · rintro ⟨⟨k, v⟩, he, heq⟩
    cases heq
    obtain ⟨hmem, hfits⟩ := List.mem_filter.1 he
    exact ⟨⟨k, v, (t.mem_entries_iff k v).1 hmem, rfl, rfl⟩, (hstart k v).2 hfits⟩

end Finality.Table
