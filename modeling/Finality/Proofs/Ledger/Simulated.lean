import Finality.Ledger.Simulated
import Finality.Proofs.Engine.Commit
import Finality.Proofs.Engine.Registration

/-!
# Releases in a simulated ledger

A call of the simulated ledger that succeeds sets the release of one transaction and leaves the rest
of the ledger alone; one that fails leaves all of it alone.

* `Sets` — the release of a transaction, absent before, is there, or the other way round.
* `SetsAll` — the same for several transactions, one after another: what the steps of a commit keep
  track of, with `SetsAll.step` to take one more and `SetsAll.back` to take the last one back.
* `Records` — the same for the records of the releases themselves.
* `Releasable`, `Undoable` — nothing stands in the way of a call.  `exists_releaseAll` and
  `exists_undoAll` say that such calls all succeed, `releasable_of_releaseAll` and
  `undoable_of_undoAll` that no others do.
* `released_of_records` — releasing transactions and undoing just those leaves the records as they
  were.
* `Records.takenBack`, `Records.releasedAgain` — what taking back releases, or undoings, leaves.
* `Reachable` — the states that the operations of a ledger lead to.
-/

namespace Finality

namespace SimulatedLedger

/-- Queries leave a simulated ledger as it is. -/
theorem queriesKeep (Λ : SimulatedLedger → Prop) : QueriesKeep Λ where
  balanceOf _ _ _ _ h := h
  holdingExists _ _ _ h := h

/-! ## One call -/

/-- Nothing stands in the way of releasing this transaction. -/
structure Releasable (t : Hash) (l : SimulatedLedger) : Prop where
  /-- Its effect is known. -/
  deferred : l.deferred.contains t = true
  /-- It is not released yet. -/
  unreleased : l.isReleased t = false
  /-- Its release is not made to fail. -/
  allowed : t ∉ l.failingReleases

/-- Nothing stands in the way of undoing the release of this transaction. -/
structure Undoable (t : Hash) (l : SimulatedLedger) : Prop where
  /-- It is released. -/
  released : l.isReleased t = true
  /-- The undoing of its release is not made to fail. -/
  allowed : t ∉ l.failingUndos

theorem Releasable.start {t : Hash} {l : SimulatedLedger} (h : l.Releasable t) :
    (Ledger.applyRelease t).start l
      = (.ok (), { l with released := l.released.insert t (l.tip.getD 0) }) := by
  simp [Ledger.applyRelease, Action.start_transaction, applyRelease, h.deferred, h.unreleased,
    h.allowed, Except.map]

theorem Undoable.start {t : Hash} {l : SimulatedLedger} (h : l.Undoable t) :
    (Ledger.undoRelease t).start l = (.ok (), { l with released := l.released.erase t }) := by
  simp [Ledger.undoRelease, Action.start_transaction, undoRelease, h.released, h.allowed,
    Except.map]

/-- Nothing stood in the way of a release that was made. -/
theorem applyRelease_ok {t : Hash} {l l' : SimulatedLedger}
    (h : (Ledger.applyRelease t).start l = (.ok (), l')) :
    l.Releasable t ∧ l' = { l with released := l.released.insert t (l.tip.getD 0) } := by
  have hreleasable : l.Releasable t := by
    simp only [Ledger.applyRelease, Action.start_transaction, SimulatedLedger.applyRelease] at h
    split at h
    · rename_i hfun
      split at hfun
      · cases hfun
      · rename_i hallowed
        split at hfun
        · cases hfun
        · rename_i hdeferred
          split at hfun
          · cases hfun
          · rename_i hnew
            exact ⟨by simpa using hdeferred, by simpa using hnew, hallowed⟩
    · cases h
  rw [hreleasable.start] at h
  cases h
  exact ⟨hreleasable, rfl⟩

theorem applyRelease_error {t : Hash} {l l' : SimulatedLedger} {e : LedgerError}
    (h : (Ledger.applyRelease t).start l = (.error e, l')) : l' = l :=
  (Action.Atomic.transaction _).eq_of_error h

/-- If no undoing is made to fail, every release can be undone. -/
theorem undoable_of_nil {t : Hash} {l : SimulatedLedger} (hno : l.failingUndos = [])
    (ht : l.isReleased t = true) : l.Undoable t where
  released := ht
  allowed := by
    rw [hno]
    exact List.not_mem_nil

/-- Nothing stood in the way of an undoing that was made. -/
theorem undoRelease_ok {t : Hash} {l l' : SimulatedLedger}
    (h : (Ledger.undoRelease t).start l = (.ok (), l')) :
    l.Undoable t ∧ l' = { l with released := l.released.erase t } := by
  have hundoable : l.Undoable t := by
    simp only [Ledger.undoRelease, Action.start_transaction, SimulatedLedger.undoRelease] at h
    split at h
    · rename_i hfun
      split at hfun
      · cases hfun
      · rename_i hallowed
        split at hfun
        · rename_i hreleased
          exact ⟨hreleased, hallowed⟩
        · cases hfun
    · cases h
  rw [hundoable.start] at h
  cases h
  exact ⟨hundoable, rfl⟩

theorem undoRelease_error {t : Hash} {l l' : SimulatedLedger} {e : LedgerError}
    (h : (Ledger.undoRelease t).start l = (.error e, l')) : l' = l :=
  (Action.Atomic.transaction _).eq_of_error h

/-! ## Which transactions are released -/

/-- The transaction has changed to released (`b` is true) or to not released, and no other one has
changed. -/
structure Sets (b : Bool) (t : Hash) (l l' : SimulatedLedger) : Prop where
  /-- Nothing but releases has changed. -/
  frame : l' = { l with released := l'.released }
  /-- It was the other way before. -/
  before : l.isReleased t = !b
  /-- Only it has changed. -/
  after : ∀ u, l'.isReleased u = if u = t then b else l.isReleased u

theorem sets_of_applyRelease {t : Hash} {l l' : SimulatedLedger}
    (h : (Ledger.applyRelease t).start l = (.ok (), l')) : Sets true t l l' := by
  obtain ⟨hreleasable, rfl⟩ := applyRelease_ok h
  refine ⟨rfl, hreleasable.unreleased, fun u => ?_⟩
  rw [isReleased, Table.contains, Table.find?_insert]
  split <;> rfl

theorem sets_of_undoRelease {t : Hash} {l l' : SimulatedLedger}
    (h : (Ledger.undoRelease t).start l = (.ok (), l')) : Sets false t l l' := by
  obtain ⟨hundoable, rfl⟩ := undoRelease_ok h
  refine ⟨rfl, hundoable.released, fun u => ?_⟩
  rw [isReleased, Table.contains, Table.find?_erase]
  split <;> rfl

/-- These transactions, and no other ones, have changed to released or to not released. -/
structure SetsAll (b : Bool) (l : SimulatedLedger) (ts : List Hash) (l' : SimulatedLedger) :
    Prop where
  /-- Nothing but releases has changed. -/
  frame : l' = { l with released := l'.released }
  /-- Each has changed once. -/
  nodup : ts.Nodup
  /-- They were the other way before. -/
  before : ∀ t ∈ ts, l.isReleased t = !b
  /-- Only they have changed. -/
  after : ∀ u, l'.isReleased u = if u ∈ ts then b else l.isReleased u

namespace SetsAll

theorem nil (b : Bool) (l : SimulatedLedger) : SetsAll b l [] l where
  frame := rfl
  nodup := List.nodup_nil
  before _ h := absurd h List.not_mem_nil
  after _ := by simp

/-- One more transaction has changed. -/
theorem step {b : Bool} {l₀ l l' : SimulatedLedger} {t : Hash} {ts : List Hash}
    (h : SetsAll b l₀ ts l) (ht : Sets b t l l') : SetsAll b l₀ (t :: ts) l' := by
  have hnew : t ∉ ts := by
    intro hmem
    have hbefore := ht.before
    rw [h.after, if_pos hmem] at hbefore
    simp at hbefore
  refine ⟨?_, List.nodup_cons.2 ⟨hnew, h.nodup⟩, fun u hu => ?_, fun u => ?_⟩
  · rw [ht.frame, h.frame]
  · rcases List.mem_cons.1 hu with rfl | hu
    · have hbefore := ht.before
      rwa [h.after, if_neg hnew] at hbefore
    · exact h.before u hu
  · rw [ht.after, h.after]
    by_cases heq : u = t <;> simp [heq]

/-- The transaction that changed last has changed back. -/
theorem back {b : Bool} {l₀ l l' : SimulatedLedger} {t : Hash} {ts : List Hash}
    (h : SetsAll b l₀ (t :: ts) l) (ht : Sets (!b) t l l') : SetsAll b l₀ ts l' := by
  obtain ⟨hnew, hnodup⟩ := List.nodup_cons.1 h.nodup
  refine ⟨?_, hnodup, fun u hu => h.before u (List.mem_cons_of_mem _ hu), fun u => ?_⟩
  · rw [ht.frame, h.frame]
  · rw [ht.after, h.after]
    by_cases heq : u = t
    · have hbefore := h.before t (List.mem_cons_self ..)
      simp [heq, hnew, hbefore]
    · simp [heq]

end SetsAll

/-- Releases that are all made and a batch that is written, or neither. -/
theorem release_cleanly {S : Type} [PollStore S] [VoteStore S] [FaithfulStore S] {keys : List Hash}
    {rs : List Resolution} {w : World S SimulatedLedger} (hrs : (rs.map Resolution.key).Nodup)
    (hclean : commitsCleanly Ledger.applyRelease Ledger.undoRelease keys rs w = true) :
    (commit Ledger.applyRelease Ledger.undoRelease keys rs).wp
      (fun _ w' => (w'.view.store = w.view.store.write rs ∧
          ∀ r ∈ rs, w.view.store.polls.contains r.key = true) ∧
        SetsAll true w.ledger keys.reverse w'.ledger)
      (fun _ w' => w'.view.store = w.view.store ∧ SetsAll true w.ledger [] w'.ledger) w :=
  commit_cleanly (fun _ _ _ _ h hcall => h.step (sets_of_applyRelease hcall))
    (fun _ _ _ _ _ h hcall => applyRelease_error hcall ▸ h)
    (fun _ _ _ _ h hcall => h.back (sets_of_undoRelease hcall)) hrs hclean (.nil _ _)

/-- Releases that are all undone and a batch that is written, or neither. -/
theorem undo_cleanly {S : Type} [PollStore S] [VoteStore S] [FaithfulStore S] {keys : List Hash}
    {rs : List Resolution} {w : World S SimulatedLedger} (hrs : (rs.map Resolution.key).Nodup)
    (hclean : commitsCleanly Ledger.undoRelease Ledger.applyRelease keys rs w = true) :
    (commit Ledger.undoRelease Ledger.applyRelease keys rs).wp
      (fun _ w' => (w'.view.store = w.view.store.write rs ∧
          ∀ r ∈ rs, w.view.store.polls.contains r.key = true) ∧
        SetsAll false w.ledger keys.reverse w'.ledger)
      (fun _ w' => w'.view.store = w.view.store ∧ SetsAll false w.ledger [] w'.ledger) w :=
  commit_cleanly (fun _ _ _ _ h hcall => h.step (sets_of_undoRelease hcall))
    (fun _ _ _ _ _ h hcall => undoRelease_error hcall ▸ h)
    (fun _ _ _ _ h hcall => h.back (sets_of_applyRelease hcall)) hrs hclean (.nil _ _)

/-! ## The records of releases -/

/-- The records of these transactions, and nothing else, have become `record`; those of releases
were not there before. -/
structure Records (record : Option Height) (l : SimulatedLedger) (ts : List Hash)
    (l' : SimulatedLedger) : Prop where
  /-- Nothing but records has changed. -/
  frame : l' = { l with released := l'.released }
  /-- Each has changed once. -/
  nodup : ts.Nodup
  /-- Records that are made are new. -/
  before : record.isSome = true → ∀ t ∈ ts, l.released.find? t = none
  /-- Only these have changed. -/
  after : ∀ u, l'.released.find? u = if u ∈ ts then record else l.released.find? u

namespace Records

variable {record : Option Height} {l l' l'' : SimulatedLedger} {t : Hash} {ts : List Hash}

theorem nil (record : Option Height) (l : SimulatedLedger) : Records record l [] l where
  frame := rfl
  nodup := List.nodup_nil
  before _ _ h := absurd h List.not_mem_nil
  after _ := by simp

/-- The order does not matter. -/
theorem reverse (h : Records record l ts l') : Records record l ts.reverse l' where
  frame := h.frame
  nodup := (List.reverse_perm ts).nodup_iff.2 h.nodup
  before hsome t ht := h.before hsome t (List.mem_reverse.1 ht)
  after u := by simpa using h.after u

/-- One more release is recorded. -/
theorem release (h : Records (some (l.tip.getD 0)) l ts l')
    (hcall : (Ledger.applyRelease t).start l' = (.ok (), l'')) :
    Records (some (l.tip.getD 0)) l (t :: ts) l'' := by
  obtain ⟨hreleasable, rfl⟩ := applyRelease_ok hcall
  have hnew := hreleasable.unreleased
  rw [isReleased, Table.contains_eq_false_iff, h.after] at hnew
  have htip : l'.tip = l.tip := by rw [h.frame]
  by_cases hmem : t ∈ ts
  · rw [if_pos hmem] at hnew
    cases hnew
  · rw [if_neg hmem] at hnew
    refine ⟨?_, List.nodup_cons.2 ⟨hmem, h.nodup⟩, fun _ u hu => ?_, fun u => ?_⟩
    · rw [h.frame]
    · rcases List.mem_cons.1 hu with rfl | hu
      · exact hnew
      · exact h.before rfl u hu
    · rw [Table.find?_insert, h.after, htip]
      by_cases heq : u = t <;> simp [heq]

/-- The record of one more release is dropped. -/
theorem undo (h : Records none l ts l')
    (hcall : (Ledger.undoRelease t).start l' = (.ok (), l'')) : Records none l (t :: ts) l'' := by
  obtain ⟨hundoable, rfl⟩ := undoRelease_ok hcall
  obtain ⟨r, hr⟩ := Table.contains_iff.1 hundoable.released
  have hmem : t ∉ ts := by
    intro hmem
    rw [h.after, if_pos hmem] at hr
    cases hr
  refine ⟨?_, List.nodup_cons.2 ⟨hmem, h.nodup⟩, fun hsome => (by cases hsome), fun u => ?_⟩
  · rw [h.frame]
  · rw [Table.find?_erase, h.after]
    by_cases heq : u = t <;> simp [heq]

end Records

/-- Releasing all of these transactions records each at the tip. -/
theorem records_of_releaseAll {keys : List Hash} {l l' : SimulatedLedger}
    (h : (releaseAll keys).start l = (.ok (), l')) :
    Records (some (l.tip.getD 0)) l keys l' := by
  have hall : Records (some (l.tip.getD 0)) l (keys.reverse ++ []) l' :=
    allOrNone_ok (R := Records (some (l.tip.getD 0)) l) (fun _ _ _ _ h hcall => h.release hcall)
      (.nil _ l) h
  simpa using hall.reverse

/-- Undoing all of these releases drops their records. -/
theorem records_of_undoAll {keys : List Hash} {l l' : SimulatedLedger}
    (h : (undoAll keys).start l = (.ok (), l')) : Records none l keys l' := by
  have hall : Records none l (keys.reverse ++ []) l' :=
    allOrNone_ok (R := Records none l) (fun _ _ _ _ h hcall => h.undo hcall) (.nil _ l) h
  simpa using hall.reverse

/-- What becomes released, or stops being so. -/
theorem Records.setsAll {record : Option Height} {ts : List Hash} {l l' : SimulatedLedger}
    (h : Records record l ts l')
    (hbefore : record.isSome = false → ∀ t ∈ ts, l.isReleased t = true) :
    SetsAll record.isSome l ts l' where
  frame := h.frame
  nodup := h.nodup
  before t ht := by
    cases hrecord : record with
    | none => exact hbefore (by rw [hrecord]; rfl) t ht
    | some r => exact Table.contains_eq_false_iff.2 (h.before (by rw [hrecord]; rfl) t ht)
  after u := by
    rw [isReleased, Table.contains, h.after]
    split <;> rfl

/-! ## Calls that all succeed -/

/-- Transactions in whose way nothing stands can all be released. -/
theorem exists_releaseAll {keys : List Hash} (hkeys : keys.Nodup) {l : SimulatedLedger}
    (h : ∀ t ∈ keys, l.Releasable t) : ∃ l', (releaseAll keys).start l = (.ok (), l') := by
  refine exists_allOrNone_ok (P := Releasable) (fun t l ht => ⟨_, ht.start, fun u hne hu => ?_⟩)
    hkeys [] h
  refine ⟨hu.deferred, ?_, hu.allowed⟩
  rw [isReleased, Table.contains, Table.find?_insert, if_neg hne]
  exact hu.unreleased

/-- Releases in whose way nothing stands can all be undone. -/
theorem exists_undoAll {keys : List Hash} (hkeys : keys.Nodup) {l : SimulatedLedger}
    (h : ∀ t ∈ keys, l.Undoable t) : ∃ l', (undoAll keys).start l = (.ok (), l') :=
  exists_allOrNone_ok (P := Undoable) (fun _ _ ht => ⟨_, ht.start, fun _ hne hu =>
    ⟨(Table.contains_erase ..).2 ⟨hne, hu.released⟩, hu.allowed⟩⟩) hkeys [] h

/-- Nothing stood in the way of transactions that were released one after another. -/
theorem releasable_of_releaseAll {keys : List Hash} {l l' : SimulatedLedger}
    (h : (releaseAll keys).start l = (.ok (), l')) : ∀ t ∈ keys, l.Releasable t := by
  let R : List Hash → SimulatedLedger → Prop := fun ts l₁ =>
    Records (some (l.tip.getD 0)) l ts l₁ ∧ ∀ t ∈ ts, l.Releasable t
  have hstep : ∀ t ts l₁ l₂, R ts l₁ → (Ledger.applyRelease t).start l₁ = (.ok (), l₂) →
      R (t :: ts) l₂ := by
    rintro t ts l₁ l₂ ⟨hrecords, hall⟩ hcall
    -- What the call found in its way or not was there from the start: only records have changed.
    have hnext := hrecords.release hcall
    have hreleasable := (applyRelease_ok hcall).1
    rw [hrecords.frame] at hreleasable
    have hnew := hnext.before rfl t (List.mem_cons_self ..)
    exact ⟨hnext, List.forall_mem_cons.2 ⟨⟨hreleasable.deferred,
      Table.contains_eq_false_iff.2 hnew, hreleasable.allowed⟩, hall⟩⟩
  have hdone : R (keys.reverse ++ []) l' := allOrNone_ok hstep ⟨.nil _ l, by simp⟩ h
  exact fun t ht => hdone.2 t (by simpa using ht)

/-- Nothing stood in the way of releases that were undone one after another. -/
theorem undoable_of_undoAll {keys : List Hash} {l l' : SimulatedLedger}
    (h : (undoAll keys).start l = (.ok (), l')) : ∀ t ∈ keys, l.Undoable t := by
  let R : List Hash → SimulatedLedger → Prop := fun ts l₁ =>
    SetsAll false l ts l₁ ∧ ∀ t ∈ ts, l.Undoable t
  have hstep : ∀ t ts l₁ l₂, R ts l₁ → (Ledger.undoRelease t).start l₁ = (.ok (), l₂) →
      R (t :: ts) l₂ := by
    rintro t ts l₁ l₂ ⟨hsets, hall⟩ hcall
    have hnext := hsets.step (sets_of_undoRelease hcall)
    have hallowed := (undoRelease_ok hcall).1.allowed
    rw [hsets.frame] at hallowed
    have hbefore := hnext.before t (List.mem_cons_self ..)
    exact ⟨hnext, List.forall_mem_cons.2 ⟨⟨hbefore, hallowed⟩, hall⟩⟩
  have hdone : R (keys.reverse ++ []) l' := allOrNone_ok hstep ⟨.nil _ l, by simp⟩ h
  exact fun t ht => hdone.2 t (by simpa using ht)

/-! ## Taking back -/

/-- What has just been released can be undone, unless that is made to fail. -/
theorem Records.undoable {r : Height} {ts : List Hash} {l l' : SimulatedLedger}
    (h : Records (some r) l ts l') {t : Hash} (ht : t ∈ ts) (hno : t ∉ l.failingUndos) :
    l'.Undoable t where
  released := Table.contains_iff.2 ⟨r, by rw [h.after, if_pos ht]⟩
  allowed := by
    rw [h.frame]
    exact hno

/-- What has just been undone can be released again, unless that is made to fail. -/
theorem Records.releasable {ts : List Hash} {l l' : SimulatedLedger} (h : Records none l ts l')
    {t : Hash} (ht : t ∈ ts) (hdeferred : l.deferred.contains t = true)
    (hno : t ∉ l.failingReleases) : l'.Releasable t where
  deferred := by
    rw [h.frame]
    exact hdeferred
  unreleased := Table.contains_eq_false_iff.2 (by rw [h.after, if_pos ht])
  allowed := by
    rw [h.frame]
    exact hno

/-- **Undoing what was released** leaves the records as they were before. -/
theorem released_of_records {record : Height} {ts us : List Hash} {l l₁ l₂ l₃ : SimulatedLedger}
    (hrelease : Records (some record) l ts l₁) (hsame : l₂.released = l₁.released)
    (hundo : Records none l₂ us l₃) (hts : ∀ t, t ∈ us ↔ t ∈ ts) : l₃.released = l.released := by
  refine Table.ext_find? fun t => ?_
  rw [hundo.after, hsame, hrelease.after]
  by_cases hmem : t ∈ ts
  · rw [if_pos ((hts t).2 hmem), hrelease.before rfl t hmem]
  · rw [if_neg (mt (hts t).1 hmem), if_neg hmem]

/-- **Releases that are taken back** leave nothing behind, unless their undoing is made to fail. -/
theorem Records.takenBack {r : Height} {ts : List Hash} {l l' : SimulatedLedger}
    (h : Records (some r) l ts l') (hno : ∀ t ∈ ts, t ∉ l.failingUndos) :
    ((compensate Ledger.undoRelease ts.reverse).start l').2 = l := by
  -- Every undoing succeeds, so it makes no difference that failures would be passed over.
  have hundoable : ∀ t ∈ ts.reverse, l'.Undoable t := fun t ht =>
    h.undoable (List.mem_reverse.1 ht) (hno t (List.mem_reverse.1 ht))
  obtain ⟨l'', hundone⟩ := exists_undoAll (h.reverse.nodup) hundoable
  have hrecords := records_of_undoAll hundone
  have hreleased := released_of_records h rfl hrecords fun t => List.mem_reverse
  rw [start_compensate_of_ok hundone]
  dsimp only
  rw [hrecords.frame, hreleased, h.frame]

/-- **Undoings that are taken back** leave the same transactions released, unless their release is
made to fail; they are recorded at the tip now. -/
theorem Records.releasedAgain {ts : List Hash} {l l' : SimulatedLedger} (h : Records none l ts l')
    (hdeferred : ∀ t ∈ ts, l.deferred.contains t = true)
    (hno : ∀ t ∈ ts, t ∉ l.failingReleases) :
    ∃ l'', (compensate Ledger.applyRelease ts.reverse).start l' = (.ok (), l'') ∧
      l'' = { l with released := l''.released } ∧
      ∀ t, l''.released.find? t
        = if t ∈ ts then some (l.tip.getD 0) else l.released.find? t := by
  have hreleasable : ∀ t ∈ ts.reverse, l'.Releasable t := fun t ht =>
    have ht := List.mem_reverse.1 ht
    h.releasable ht (hdeferred t ht) (hno t ht)
  obtain ⟨l'', hagain⟩ := exists_releaseAll (h.reverse.nodup) hreleasable
  have hrecords := records_of_releaseAll hagain
  refine ⟨l'', start_compensate_of_ok hagain, ?_, fun t => ?_⟩
  · rw [hrecords.frame, h.frame]
  · have htip : l'.tip = l.tip := by rw [h.frame]
    rw [hrecords.after, h.after, htip]
    by_cases ht : t ∈ ts <;> simp [ht]

/-- **Releases that fail half way leave nothing behind**, unless an undoing is made to fail. -/
theorem eq_of_releaseAll_error {keys : List Hash} {l l' : SimulatedLedger} {e : EngineError}
    (hno : ∀ t ∈ keys, t ∉ l.failingUndos) (h : (releaseAll keys).start l = (.error e, l')) :
    l' = l := by
  obtain ⟨taken, key, l₁, l₂, e', hbegins, -, htaken, hkey, rfl⟩ := exists_of_allOrNone_error h
  cases applyRelease_error hkey
  rw [List.append_nil]
  exact (records_of_releaseAll htaken).takenBack fun t ht =>
    hno t (hbegins.subset (List.mem_append_left _ ht))

/-! ## What the operations lead to -/

/-- The states that the operations of a ledger lead to, beginning with nothing known. -/
inductive Reachable : SimulatedLedger → Prop where
  /-- Nothing is known yet. -/
  | empty : Reachable empty
  /-- A balance is set. -/
  | setBalance {l : SimulatedLedger} (h : Reachable l) (account : AccountId) (holding : Holding)
      (height : Height) (amount : Amount) : Reachable (l.setBalance account holding height amount)
  /-- An asset or a currency is added. -/
  | addHolding {l : SimulatedLedger} (h : Reachable l) (kind : HoldingKind) (id : HoldingId) :
      Reachable (l.addHolding kind id)
  /-- The effect of a transaction is set. -/
  | defer {l : SimulatedLedger} (h : Reachable l) (t : Hash) (transfer : Transfer) :
      Reachable (l.defer t transfer)
  /-- A release is made to fail. -/
  | failRelease {l : SimulatedLedger} (h : Reachable l) (t : Hash) : Reachable (l.failRelease t)
  /-- An undoing is made to fail. -/
  | failUndo {l : SimulatedLedger} (h : Reachable l) (t : Hash) : Reachable (l.failUndo t)
  /-- Nothing is made to fail any more. -/
  | clearFailures {l : SimulatedLedger} (h : Reachable l) (t : Hash) : Reachable (l.clearFailures t)
  /-- The tip moves. -/
  | setTip {l : SimulatedLedger} (h : Reachable l) (height : Height) : Reachable (l.setTip height)
  /-- A transaction is released. -/
  | applyRelease {l l' : SimulatedLedger} (h : Reachable l) {t : Hash}
      (hcall : (Ledger.applyRelease t).start l = (.ok (), l')) : Reachable l'
  /-- A release is undone. -/
  | undoRelease {l l' : SimulatedLedger} (h : Reachable l) {t : Hash}
      (hcall : (Ledger.undoRelease t).start l = (.ok (), l')) : Reachable l'

/-- **Only transactions whose effect is known are ever released.** -/
theorem Reachable.deferred_of_released {l : SimulatedLedger} (h : l.Reachable) {t : Hash}
    (ht : l.isReleased t = true) : l.deferred.contains t = true := by
  induction h with
  | empty => cases ht
  | setBalance _ _ _ _ _ ih => exact ih ht
  | addHolding _ _ _ ih => exact ih ht
  | defer _ u transfer ih =>
    rw [SimulatedLedger.defer, Table.contains_insert]
    exact .inr (ih ht)
  | failRelease _ _ ih => exact ih ht
  | failUndo _ _ ih => exact ih ht
  | clearFailures _ _ ih => exact ih ht
  | setTip _ _ ih => exact ih ht
  | applyRelease _ hcall ih =>
    obtain ⟨hreleasable, rfl⟩ := applyRelease_ok hcall
    rcases (Table.contains_insert ..).1 ht with rfl | ht
    · exact hreleasable.deferred
    · exact ih ht
  | undoRelease _ hcall ih =>
    obtain ⟨-, rfl⟩ := undoRelease_ok hcall
    exact ih ((Table.contains_erase ..).1 ht).2

/-- Releasing several transactions is one operation after another. -/
theorem Reachable.releaseAll {l l' : SimulatedLedger} (hl : l.Reachable) (keys : List Hash)
    (h : (releaseAll keys).start l = (.ok (), l')) : l'.Reachable :=
  allOrNone_ok (R := fun _ l => l.Reachable) (fun _ _ _ _ hdone hcall => hdone.applyRelease hcall)
    hl h

end SimulatedLedger

end Finality
