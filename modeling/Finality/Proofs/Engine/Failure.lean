import Finality.Proofs.Engine.Release

/-!
# When taking a block back fails

Taking a block back can fail at every call of the store or the ledger.  The decisions that were
undone are then restored, and the transactions released again.  Votes and polls that were removed
are not put back, so a failure between two removals leaves the block without some of its contents.

* `popCompensates` — whether everything that is taken back then is taken back with success.
* `MemoryStore.Sheds.restore` — restoring the decisions of a height makes good for their undoing.
* `World.Attempted` — what a failed attempt leaves of a world, and `popHeight_attempted`, that it
  leaves no less.
* `failed_pop_spares_earlier_blocks` — the result for stores that may fail at any call, and
  `failed_pop_loses_vote`, a vote that is lost.
-/

namespace Finality

variable {S L : Type}

/-- Whether, if taking a block back fails half way, everything that has to be taken back then is
taken back with success, and the undone resolutions are restored with success. -/
def popCompensates [PollStore S] [VoteStore S] [Ledger L] (height : Height) (w : World S L) :
    Bool :=
  match (checkRollbackAt height).start w with
  | (.ok _, w₁) =>
    undoesCleanly height w₁ &&
      match (undoHeight height).start w₁ with
      | (.ok reverted, w₂) =>
        match (dropContents height).start w₂ with
        | (.error _, w₃) => ((restore reverted).start w₃).1.toBool
        | _ => true
      | _ => true
  | _ => true

namespace MemoryStore

/-- The changes that restore the decisions of a height. -/
def restorations (height : Height) (s : MemoryStore) : List Resolution :=
  ((s.decidedAt height).map (ResolvedPoll.ofPoll height)).map ResolvedPoll.toResolution

/-- Each decided poll is restored once. -/
theorem nodup_restorations {s : MemoryStore} (hs : s.Keyed) (height : Height) :
    ((s.restorations height).map Resolution.key).Nodup := by
  unfold restorations
  rw [List.map_map, List.map_map]
  exact nodup_decidedAt hs height

/-- A poll whose decision is undone and then restored is as it was. -/
theorem restore_undecide {s : MemoryStore} (hs : s.Keyed) {height : Height} {key : Hash} {p : Poll}
    (hp : s.polls.find? key = some p) :
    (match (s.restorations height).find? fun r => r.key = key with
      | some r => (p.undecide height).resolve r
      | none => p.undecide height) = p := by
  unfold restorations Poll.undecide
  rw [find?_restored]
  have hkey := hs.polls hp
  cases hfound : (s.decidedAt height).find? fun q => q.key = key with
  | none =>
    have hother : ¬ (p.finishHeight = height ∧ p.status.isResolved = true) := by
      intro hdecided
      have hmem := (mem_decidedAt hs).2 ⟨by rwa [hkey], hdecided⟩
      simpa [hkey] using List.find?_eq_none.1 hfound p hmem
    rw [if_neg hother]
    rfl
  | some q =>
    have hqkey : q.key = key := by simpa using List.find?_some hfound
    obtain ⟨hq, hdecided⟩ := (mem_decidedAt hs).1 (List.mem_of_find?_eq_some hfound)
    rw [hqkey, hp] at hq
    cases hq
    rw [if_pos hdecided]
    rfl

/-- **Restoring makes good for undoing**: what is missing after it was missing before. -/
theorem Sheds.restore {s s' : MemoryStore} (hs : s.Keyed) {height : Height}
    (hpending : s.UndecidedSince height) (h : (s.undecide height).Sheds height s') :
    s.Sheds height (s'.write (s.restorations height)) where
  polls := by
    intro key
    rw [write, Table.find?_map]
    rcases h.polls key with hsame | ⟨hgone, hcreated⟩
    · rw [hsame, undecide, Table.find?_map, Option.map_map]
      cases hp : s.polls.find? key with
      | none => exact .inl rfl
      | some p => exact .inl (congrArg some (restore_undecide hs hp))
    · rw [hgone]
      refine .inr ⟨rfl, fun p hp => ?_⟩
      have hundecided : (s.undecide height).polls.find? key = some (p.undecide height) := by
        rw [undecide, Table.find?_map, hp]
        rfl
      have hblock : p.createdHeight = height := by
        rw [← (hcreated _ hundecided).1, Poll.createdHeight_undecide]
      exact ⟨hblock, hpending hp hblock⟩
  votes := h.votes

end MemoryStore

/-! ## What is left -/

/-- Taking the block at a height back can fail only at the store or the ledger: its own polls are
undecided, and what was approved at the height is released. -/
structure World.Poppable (height : Height) (v : World MemoryStore SimulatedLedger) : Prop where
  /-- Its own polls are undecided. -/
  undecided : v.store.UndecidedSince height
  /-- What was approved at the height is released. -/
  released : ∀ t ∈ approvedKeys (v.store.decidedAt height), v.ledger.isReleased t = true

/-- The second world is what failed attempts to take back the block at a height have left of the
first. -/
structure World.Attempted (height : Height) (v v' : World MemoryStore SimulatedLedger) : Prop where
  /-- The ledger knows the same effects. -/
  deferred : v'.ledger.deferred = v.ledger.deferred
  /-- The same transactions are released. -/
  released : ∀ t, v'.ledger.isReleased t = v.ledger.isReleased t
  /-- Some votes and undecided polls of the block may be gone. -/
  store : v.store.Sheds height v'.store
  /-- If any is, taking the block back can succeed. -/
  poppable : v'.store = v.store ∨ v.Poppable height

namespace World.Attempted

variable {height : Height} {v v' v'' : World MemoryStore SimulatedLedger}

theorem refl (height : Height) (v : World MemoryStore SimulatedLedger) : v.Attempted height v where
  deferred := rfl
  released _ := rfl
  store := .refl height _
  poppable := .inl rfl

/-- Only releases have been changed, and changed back. -/
theorem of_same (hstore : v'.store = v.store)
    (hledger : SimulatedLedger.SetsAll false v.ledger [] v'.ledger) : v.Attempted height v' where
  deferred := by rw [hledger.frame]
  released t := (hledger.after t).trans (if_neg List.not_mem_nil)
  store := hstore ▸ .refl height _
  poppable := .inl hstore

/-- Decisions have been undone with their releases and then restored, when some contents of the
block were gone. -/
theorem of_restored (hs : v.store.Keyed) (hpending : v.store.UndecidedSince height)
    {l : SimulatedLedger} (hundone : SimulatedLedger.SetsAll false v.ledger
      (approvedKeys (v.store.decidedAt height)).reverse l)
    {s : MemoryStore} (hsheds : (v.store.undecide height).Sheds height s)
    (hstore : v'.store = s.write (v.store.restorations height))
    (hledger : SimulatedLedger.SetsAll true l
      (restoredKeys ((v.store.decidedAt height).map (ResolvedPoll.ofPoll height))).reverse
      v'.ledger) : v.Attempted height v' where
  deferred := by rw [hledger.frame, hundone.frame]
  released := by
    intro t
    rw [hledger.after, hundone.after]
    simp only [List.mem_reverse, mem_restoredKeys, ← mem_approvedKeys]
    by_cases happroved : t ∈ approvedKeys (v.store.decidedAt height)
    · have hreleased := hundone.before t (List.mem_reverse.2 happroved)
      simp [happroved, hreleased]
    · simp [happroved]
  store := hstore ▸ hsheds.restore hs hpending
  poppable := .inr ⟨hpending, fun t ht => by
    simpa using hundone.before t (List.mem_reverse.2 ht)⟩

end World.Attempted

section

variable [PollStore S] [VoteStore S] [FaithfulStore S] {w w' : World S SimulatedLedger}

/-- Restoring that succeeds has released the transactions again and written the decisions. -/
theorem restore_ok {s : MemoryStore} (hs : s.Keyed) {height : Height}
    (h : (restore ((s.decidedAt height).map (ResolvedPoll.ofPoll height))).start w
      = (.ok (), w')) :
    w'.view.store = w.view.store.write (s.restorations height) ∧
      SimulatedLedger.SetsAll true w.ledger
        (restoredKeys ((s.decidedAt height).map (ResolvedPoll.ofPoll height))).reverse
        w'.ledger := by
  obtain ⟨⟨hstore, -⟩, hsets⟩ := commit_ok (R := SimulatedLedger.SetsAll true w.ledger)
    (fun _ _ _ _ hdone hcall => hdone.step (SimulatedLedger.sets_of_applyRelease hcall))
    (MemoryStore.nodup_restorations hs height) (.nil _ _) h
  exact ⟨hstore, hsets⟩

/-- **An attempt to take a block back that fails** restores the decisions and the releases, and
leaves everything alone but votes and polls of the block; and it leaves these alone too if it was
not the store that failed. -/
theorem popHeight_attempted (hs : w.view.store.Keyed) {height : Height}
    (hclean : popCompensates height w = true) {e : EngineError}
    (h : (popHeight height).start w = (.error e, w')) :
    w.view.Attempted height w'.view ∧
      ((∀ e', e ≠ .store e') → w'.view.store = w.view.store) := by
  have hcheck := checkRollbackAt_yields (S := S) hs height
  rw [popHeight, Action.start_bind] at h
  rcases hx₁ : (checkRollbackAt height).start w with ⟨e₁ | keys, w₁⟩
  · rw [hx₁] at h
    cases h
    rw [(hcheck.of_error hx₁).1]
    exact ⟨.refl height _, fun _ => rfl⟩
  · rw [hx₁] at h
    dsimp only at h
    obtain ⟨hview, -, hpending⟩ := hcheck.of_ok hx₁
    rw [popCompensates, hx₁, Bool.and_eq_true] at hclean
    obtain ⟨hundoes, hrestores⟩ := hclean
    rw [← hview] at hs hpending ⊢
    have hundo := undoHeight_cleanly hs hundoes
    rw [Action.start_bind] at h
    rcases hx₂ : (undoHeight height).start w₁ with ⟨e₂ | reverted, w₂⟩
    · rw [hx₂] at h
      cases h
      obtain ⟨hstore, hsets⟩ := hundo.of_error hx₂
      exact ⟨.of_same hstore hsets, fun _ => hstore⟩
    · rw [hx₂] at h hrestores
      dsimp only at h hrestores
      obtain ⟨rfl, hstore, hundone⟩ := hundo.of_ok hx₂
      have hkeyed₂ : w₂.view.store.Keyed := hstore ▸ hs.undecide height
      have hdrop := dropContents_yields (S := S) hkeyed₂ height
      rw [Action.start_bind, Action.start_outcome] at h
      rcases hx₃ : (dropContents height).start w₂ with ⟨e₃ | ⟨⟩, w₃⟩
      · rw [hx₃] at h hrestores
        obtain ⟨hcause, hledger, hsheds⟩ := hdrop.of_error hx₃
        rw [hstore] at hcause hsheds
        have hsheds := hsheds (hpending.undecide height)
        dsimp only at h hrestores
        rw [Action.start_bind, Action.start_outcome] at h
        rcases hx₄ : (restore ((w₁.view.store.decidedAt height).map
          (ResolvedPoll.ofPoll height))).start w₃ with ⟨e₄ | ⟨⟩, w₄⟩
        · rw [hx₄] at hrestores
          cases hrestores
        · rw [hx₄] at h
          cases h
          obtain ⟨hwritten, hsets⟩ := restore_ok hs hx₄
          have hlast : w₃.ledger = w₂.ledger := hledger
          rw [hlast] at hsets
          refine ⟨.of_restored hs hpending hundone hsheds hwritten hsets, fun hother => ?_⟩
          obtain ⟨-, e', he'⟩ := hcause.fallible (hpending.undecide height)
          exact absurd he' (hother e')
      · rw [hx₃] at h
        cases h

end

/-- **A failed attempt to take a block back spares everything but the block.**  Over any contents, a
ledger in any state and a store that may fail at any call: if taking back the block at a height
fails, and what is taken back then is taken back with success, then the same transactions are
released as before, and all polls and votes are as they were, except that votes cast at the height
and undecided polls created at it may be gone; and these are as they were too, unless it was the
store that failed. -/
theorem failed_pop_spares_earlier_blocks {φ : Type} [FaultSource φ]
    (w : World (Faulty φ MemoryStore) SimulatedLedger) (hs : w.store.store.Keyed)
    (height : Height) (e : EngineError) (hfails : ((popHeight height).start w).1 = .error e)
    (hclean : popCompensates height w = true) :
    let w' := ((popHeight height).start w).2
    (∀ t, w'.ledger.isReleased t = w.ledger.isReleased t) ∧
    w.store.store.Sheds height w'.store.store ∧
    ((∀ e', e ≠ .store e') → w'.store.store = w.store.store) := by
  intro w'
  have hstart : (popHeight height).start w = (.error e, w') := Prod.ext hfails rfl
  obtain ⟨hattempted, hstore⟩ := popHeight_attempted (S := Faulty φ MemoryStore) hs hclean hstart
  exact ⟨hattempted.released, hattempted.store, hstore⟩

/-- At height two a transaction was released, as its poll is approved, and two votes were cast on
another poll. -/
def MemoryStore.voted : MemoryStore :=
  { polls := ((∅ : Table Hash Poll).insert .zero ((PollRequest.single .zero 9).toPoll 1)).insert
      .ones (((PollRequest.single .ones 2).toPoll 1).resolve ⟨.ones, .approved, 1⟩)
    votes := ((∅ : Table VoteKey Vote).insert ⟨.zero, ⟨7⟩⟩ ⟨.zero, ⟨7⟩, 1, 2⟩).insert
      ⟨.zero, ⟨8⟩⟩ ⟨.zero, ⟨8⟩, 1, 2⟩ }

theorem MemoryStore.keyed_voted : voted.Keyed :=
  (((keyed_empty.insertPoll ((PollRequest.single .zero 9).toPoll 1)).insertPoll
    (((PollRequest.single .ones 2).toPoll 1).resolve ⟨.ones, .approved, 1⟩)).insertVote
      ⟨.zero, ⟨7⟩, 1, 2⟩).insertVote ⟨.zero, ⟨8⟩, 1, 2⟩

/-- The ledger that goes with these polls and votes. -/
def SimulatedLedger.voted : SimulatedLedger :=
  { SimulatedLedger.empty.defer .ones ⟨⟨1⟩, ⟨2⟩, .native, 5⟩ with
    released := (∅ : Table Hash Height).insert .ones 2 }

/-- These polls and votes in a store that is going to fail at removing the second vote. -/
def World.losing : World (Faulty FaultPlan MemoryStore) SimulatedLedger :=
  ⟨⟨[(.deleteVote, ⟨1, 1, .backend "disk"⟩)], .voted⟩, .voted⟩

/-- The release is undone and made again, and everything but the first vote is as it was. -/
theorem failed_pop_spares_earlier_blocks_losing :
    let w' := ((popHeight 2).start World.losing).2
    MemoryStore.voted.Keyed ∧
    ((popHeight 2).start World.losing).1 = .error (.store (.backend "disk")) ∧
    popCompensates 2 World.losing = true ∧
    (∀ t, w'.ledger.isReleased t = SimulatedLedger.voted.isReleased t) ∧
    MemoryStore.voted.Sheds 2 w'.store.store ∧
    ((∀ e', EngineError.store (.backend "disk") ≠ .store e') →
      w'.store.store = .voted) := by
  have hfails : ((popHeight 2).start World.losing).1 = .error (.store (.backend "disk")) := by
    rfl
  exact ⟨MemoryStore.keyed_voted, hfails, by decide +kernel, failed_pop_spares_earlier_blocks
    World.losing MemoryStore.keyed_voted 2 _ hfails (by decide +kernel)⟩

/-- **A vote is lost**: taking the block back fails at its second vote, nothing that is taken back
then fails, and the first vote is gone for good. -/
theorem failed_pop_loses_vote :
    let w' := ((popHeight 2).start World.losing).2
    ((popHeight 2).start World.losing).1.toBool = false ∧
    popCompensates 2 World.losing = true ∧
    MemoryStore.voted.votesOn .zero = [⟨.zero, ⟨7⟩, 1, 2⟩, ⟨.zero, ⟨8⟩, 1, 2⟩] ∧
    w'.store.store.votesOn .zero = [⟨.zero, ⟨8⟩, 1, 2⟩] := by
  exact ⟨by decide +kernel, by decide +kernel, by decide +kernel, by decide +kernel⟩

end Finality
