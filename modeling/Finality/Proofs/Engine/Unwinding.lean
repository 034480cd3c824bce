import Finality.Proofs.Engine.Resolved

/-!
# Resolutions and undoings that fail

Resolving a height can fail while it reads, at any release and at the batch of statuses; undoing it
can fail while it reads, at any undoing of a release and at the batch.  Whatever had been done until
then is taken back, in reverse order, and what is taken back is exactly what had been done.

* `resolveHeight_unwinds`, `undoHeight_unwinds` — a failure leaves the store alone, and of the
  ledger what taking back the first few releases, or undoings, leaves.
* `failed_resolution_leaves_no_trace` — releases that are undone leave nothing behind.
* `failed_undo_leaves_height_resolved` — undoings that are taken back leave the same transactions
  released, but recorded at the tip of the ledger.
-/

namespace Finality

variable {S : Type} [PollStore S] [VoteStore S] [FaithfulStore S]
  {w w' : World S SimulatedLedger} {height : Height} {e : EngineError}

/-! ## What is taken back -/

/-- A resolution that fails leaves the store alone, has released some of the transactions of polls
that are due, and takes that back. -/
theorem resolveHeight_unwinds (hs : w.view.store.Keyed)
    (h : (resolveHeight height).start w = (.error e, w')) :
    w'.view.store = w.view.store ∧ ∃ taken l, (releaseAll taken).start w.ledger = (.ok (), l) ∧
      (∀ t ∈ taken, ∃ p, w.view.store.polls.find? t = some p ∧ p.finishHeight = height) ∧
      w'.ledger = ((compensate Ledger.undoRelease taken.reverse).start l).2 := by
  have hyields := decideHeight_yields (S := S) hs height
  rw [resolveHeight_eq] at h
  obtain hread | ⟨r, w₁, hread, h⟩ := Action.error_of_start_bind h
  · have hview := (hyields.of_error hread).1
    exact ⟨by rw [hview], [], w.ledger, rfl, by simp, World.ledger_of_view hview⟩
  · obtain ⟨hview, hr⟩ := hyields.of_ok hread
    cases r with
    | none => cases h
    | some r =>
      obtain ⟨polls, outcomes⟩ := r
      obtain hcommit | ⟨⟨⟩, w₂, -, h⟩ := Action.error_of_start_bind h
      · obtain ⟨hstore, taken, l, hbegins, hreleased, hledger⟩ := commit_unwinds
          (fun _ _ _ _ hcall => SimulatedLedger.applyRelease_error hcall)
          outcomes.nodup_resolutions hcommit
        rw [World.ledger_of_view hview] at hreleased
        refine ⟨by rw [hstore, hview], taken, l, hreleased, fun t ht => ?_, hledger⟩
        obtain ⟨o, ho, -⟩ := Outcomes.mem_approved.1 (hbegins.subset ht)
        exact hr.2.keys.1 (Table.contains_iff.2 ⟨o, ho⟩)
      · cases h

/-- An undoing that fails leaves the store alone, has undone the releases of some of the polls
approved at the height, and takes that back. -/
theorem undoHeight_unwinds (hs : w.view.store.Keyed)
    (h : (undoHeight height).start w = (.error e, w')) :
    w'.view.store = w.view.store ∧ ∃ taken l, (undoAll taken).start w.ledger = (.ok (), l) ∧
      (∀ t ∈ taken, ∃ p, w.view.store.polls.find? t = some p ∧ p.finishHeight = height ∧
        p.status = .approved) ∧
      w'.ledger = ((compensate Ledger.applyRelease taken.reverse).start l).2 := by
  have hyields := decidedAt_yields (S := S) (v := w.view) height
  rw [undoHeight_eq] at h
  obtain hread | ⟨ps, w₁, hread, h⟩ := Action.error_of_start_bind h
  · have hview := (hyields.of_error hread).1
    exact ⟨by rw [hview], [], w.ledger, rfl, by simp, World.ledger_of_view hview⟩
  · obtain ⟨hview, rfl⟩ := hyields.of_ok hread
    split at h
    · cases h
    · obtain hcommit | ⟨⟨⟩, w₂, -, h⟩ := Action.error_of_start_bind h
      · obtain ⟨hstore, taken, l, hbegins, hundone, hledger⟩ := commit_unwinds
          (fun _ _ _ _ hcall => SimulatedLedger.undoRelease_error hcall)
          (MemoryStore.nodup_resets hs height) hcommit
        rw [World.ledger_of_view hview] at hundone
        exact ⟨by rw [hstore, hview], taken, l, hundone, fun t ht =>
          (MemoryStore.mem_approvedKeys_decidedAt hs).1 (hbegins.subset ht), hledger⟩
      · cases h

/-! ## What is left -/

/-- **A failed resolution leaves no trace.**  Over every store in which everything stands under its
own key, and whatever the ledger is like: if resolving a height fails, at any call of the store or
the ledger, and no release of a poll due at the height is kept from being undone, then polls, votes
and the whole ledger are as they were. -/
theorem failed_resolution_leaves_no_trace (w : World S SimulatedLedger) (hs : w.view.store.Keyed)
    (height : Height) (e : EngineError) (hfails : ((resolveHeight height).start w).1 = .error e)
    (hundo : ∀ key p, w.view.store.polls.find? key = some p → p.finishHeight = height →
      key ∉ w.ledger.failingUndos) :
    let w' := ((resolveHeight height).start w).2
    w'.view.store = w.view.store ∧ w'.ledger = w.ledger := by
  intro w'
  have hstart : (resolveHeight height).start w = (.error e, w') := Prod.ext hfails rfl
  obtain ⟨hstore, taken, l, hreleased, hdue, hledger⟩ := resolveHeight_unwinds hs hstart
  refine ⟨hstore, ?_⟩
  rw [hledger]
  refine (SimulatedLedger.records_of_releaseAll hreleased).takenBack fun t ht => ?_
  obtain ⟨p, hp, hheight⟩ := hdue t ht
  exact hundo t p hp hheight

/-- The batch fails after three releases, which are undone; the undoing of a release made earlier
would fail. -/
theorem failed_resolution_leaves_no_trace_mixed :
    let w : World (Faulty FaultPlan MemoryStore) SimulatedLedger :=
      ⟨⟨[(.applyResolutions, ⟨0, 1, .backend "disk"⟩)], .mixed⟩,
        SimulatedLedger.mixed.failUndo (.filled 6)⟩
    let w' := ((resolveHeight 10).start w).2
    MemoryStore.mixed.Keyed ∧
    ((resolveHeight 10).start w).1 = .error (.store (.backend "disk")) ∧
    (∀ key p, MemoryStore.mixed.polls.find? key = some p → p.finishHeight = 10 →
      key ∉ w.ledger.failingUndos) ∧
    w'.view.store = .mixed ∧ w'.ledger = w.ledger := by
  intro w w'
  have hkeyed : MemoryStore.mixed.Keyed := MemoryStore.keyed_holding _ _
  have hfails : ((resolveHeight 10).start w).1 = .error (.store (.backend "disk")) := by
    decide +kernel
  have hundo : ∀ key p, MemoryStore.mixed.polls.find? key = some p → p.finishHeight = 10 →
      key ∉ w.ledger.failingUndos :=
    hkeyed.forall_due (by decide +kernel)
  exact ⟨hkeyed, hfails, hundo, failed_resolution_leaves_no_trace w hkeyed 10 _ hfails hundo⟩

/-- **A failed undo leaves the height resolved.**  Over every store in which everything stands under
its own key, and every ledger that the operations of ledgers lead to: if undoing a height fails, at
any call of the store or the ledger, and no poll approved at the height is kept from being released,
then polls and votes are as they were and the same transactions are released; and if what is
approved at the height had been released at the tip of the ledger, the whole ledger is as it was. -/
theorem failed_undo_leaves_height_resolved (w : World S SimulatedLedger)
    (hs : w.view.store.Keyed) (hreach : w.ledger.Reachable) (height : Height) (e : EngineError)
    (hfails : ((undoHeight height).start w).1 = .error e)
    (hrelease : ∀ key p, w.view.store.polls.find? key = some p → p.finishHeight = height →
      p.status = .approved → key ∉ w.ledger.failingReleases) :
    let w' := ((undoHeight height).start w).2
    w'.view.store = w.view.store ∧
    (∀ t, w'.ledger.isReleased t = w.ledger.isReleased t) ∧
    ((∀ key p, w.view.store.polls.find? key = some p → p.finishHeight = height →
        p.status = .approved → w.ledger.released.find? key = some (w.ledger.tip.getD 0)) →
      w'.ledger = w.ledger) := by
  intro w'
  have hstart : (undoHeight height).start w = (.error e, w') := Prod.ext hfails rfl
  obtain ⟨hstore, taken, l, hundone, happroved, hledger⟩ := undoHeight_unwinds hs hstart
  have hbefore : ∀ t ∈ taken, w.ledger.isReleased t = true := fun t ht =>
    (SimulatedLedger.undoable_of_undoAll hundone t ht).released
  obtain ⟨l', hagain, hframe, hrecords⟩ :=
    (SimulatedLedger.records_of_undoAll hundone).releasedAgain
      (fun t ht => hreach.deferred_of_released (hbefore t ht)) fun t ht => by
        obtain ⟨p, hp, hheight, hstatus⟩ := happroved t ht
        exact hrelease t p hp hheight hstatus
  rw [hagain] at hledger
  obtain rfl : l' = w'.ledger := hledger.symm
  refine ⟨hstore, fun t => ?_, fun htip => ?_⟩
  · rw [SimulatedLedger.isReleased, Table.contains, hrecords]
    by_cases ht : t ∈ taken
    · rw [if_pos ht, hbefore t ht]
      rfl
    · rw [if_neg ht]
      rfl
  · -- A transaction released again is recorded at the tip, where it had been recorded before.
    have hreleased : w'.ledger.released = w.ledger.released := by
      refine Table.ext_find? fun t => ?_
      rw [hrecords]
      by_cases ht : t ∈ taken
      · obtain ⟨p, hp, hheight, hstatus⟩ := happroved t ht
        rw [if_pos ht, htip t p hp hheight hstatus]
      · rw [if_neg ht]
    rw [hframe, hreleased]

/-- The ledger with the three releases of height ten. -/
def SimulatedLedger.mixedReleased : SimulatedLedger :=
  ((releaseAll [.filled 1, .filled 2, .filled 4]).start SimulatedLedger.mixed).2

/-- The polls of height ten with their outcomes. -/
def MemoryStore.mixedResolved : MemoryStore :=
  MemoryStore.mixed.write [⟨.filled 1, .approved, 1⟩, ⟨.filled 2, .approved, 110⟩,
    ⟨.filled 3, .rejected, 1⟩, ⟨.filled 4, .approved, 0⟩]

/-- Two undoings succeed and the third fails, so that two transactions are released again. -/
theorem failed_undo_leaves_height_resolved_mixed :
    let w : World MemoryStore SimulatedLedger :=
      ⟨.mixedResolved, SimulatedLedger.mixedReleased.failUndo (.filled 1)⟩
    let w' := ((undoHeight 10).start w).2
    w.store.Keyed ∧ w.ledger.Reachable ∧
    ((undoHeight 10).start w).1 =
      .error (.ledger (.backend ("injected undo failure for " ++ (Hash.filled 1).toHex))) ∧
    w'.store = w.store ∧ (∀ t, w'.ledger.isReleased t = w.ledger.isReleased t) ∧
    w'.ledger = w.ledger := by
  intro w w'
  have hkeyed : w.store.Keyed :=
    (MemoryStore.keyed_holding _ _).mapPolls fun _ _ => by split <;> rfl
  have hreach : w.ledger.Reachable := by
    refine .failUndo (SimulatedLedger.reachable_mixed.releaseAll
      [.filled 1, .filled 2, .filled 4] ?_) _
    exact Prod.ext (by decide +kernel) rfl
  have hfails : ((undoHeight 10).start w).1 =
      .error (.ledger (.backend ("injected undo failure for " ++ (Hash.filled 1).toHex))) := by
    decide +kernel
  have htip : ∀ key p, w.store.polls.find? key = some p → p.finishHeight = 10 →
      p.status = .approved → w.ledger.released.find? key = some 10 :=
    hkeyed.forall_due (by decide +kernel)
  obtain ⟨hstore, hreleased, hledger⟩ := failed_undo_leaves_height_resolved w hkeyed hreach 10 _
    hfails fun _ _ _ _ _ => List.not_mem_nil
  exact ⟨hkeyed, hreach, hfails, hstore, hreleased, hledger htip⟩

end Finality
