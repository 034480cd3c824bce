import Finality.Proofs.Engine.Rollback
import Finality.Proofs.Ledger.Simulated

/-!
# Releases in step with approvals

The ledger and the store are *in step* if the ledger has released exactly the transactions whose
polls are approved.  Resolving a height, undoing it and taking a block back touch both sides, and
may fail at every call of either.  They keep store and ledger in step whether they succeed or fail,
provided that the calls which take releases or undoings back succeed.

* `resolvesCleanly`, `undoesCleanly`, `restoresCleanly`, `popsCleanly` — whether those calls
  succeed.
* `resolveHeight_inStep`, `undoHeight_inStep`, `restore_inStep`, `popHeight_inStep` — store and
  ledger stay in step.  The store may fail at any call.
-/

namespace Finality

variable {S L : Type}

/-! ## Taking back with success -/

section

variable [PollStore S] [VoteStore S] [Ledger L]

/-- Whether, if resolving a height has to take releases back, that succeeds. -/
def resolvesCleanly (height : Height) (w : World S L) : Bool :=
  match (decideHeight height).start w with
  | (.ok (some (_, outcomes)), w') =>
    commitsCleanly Ledger.applyRelease Ledger.undoRelease outcomes.approved outcomes.resolutions w'
  | _ => true

/-- Whether, if undoing a height has to release transactions again, that succeeds. -/
def undoesCleanly (height : Height) (w : World S L) : Bool :=
  match (decidedAt height).start w with
  | (.ok resolved, w') =>
    commitsCleanly Ledger.undoRelease Ledger.applyRelease (approvedKeys resolved)
      (resolved.map Poll.reset) w'
  | _ => true

/-- The transactions that `restore` releases, in ascending order. -/
def restoredKeys (reverted : List ResolvedPoll) : List Hash :=
  sortBy compare <| (reverted.filter fun r => r.status = .approved).map ResolvedPoll.key

/-- Whether, if restoring resolutions has to take releases back, that succeeds. -/
def restoresCleanly (reverted : List ResolvedPoll) (w : World S L) : Bool :=
  commitsCleanly Ledger.applyRelease Ledger.undoRelease (restoredKeys reverted)
    (reverted.map ResolvedPoll.toResolution) w

/-- Whether, if taking a block back fails half way, what has to be taken back then is taken back
with success.  The restoring of resolutions itself may fail. -/
def popsCleanly (height : Height) (w : World S L) : Bool :=
  match (checkRollbackAt height).start w with
  | (.ok _, w₁) =>
    undoesCleanly height w₁ &&
      match (undoHeight height).start w₁ with
      | (.ok reverted, w₂) =>
        match (dropContents height).start w₂ with
        | (.error _, w₃) => restoresCleanly reverted w₃
        | _ => true
      | _ => true
  | _ => true

end

/-! ## What restoring writes and releases -/

theorem mem_restoredKeys {ps : List Poll} {height : Height} {t : Hash} :
    t ∈ restoredKeys (ps.map (ResolvedPoll.ofPoll height)) ↔
      ∃ p ∈ ps, p.key = t ∧ p.status = .approved := by
  rw [restoredKeys, (sortBy_perm _ _).mem_iff, List.mem_map]
  constructor
  · rintro ⟨r, hr, rfl⟩
    obtain ⟨hmem, happroved⟩ := List.mem_filter.1 hr
    obtain ⟨p, hp, rfl⟩ := List.mem_map.1 hmem
    exact ⟨p, hp, rfl, of_decide_eq_true happroved⟩
  · rintro ⟨p, hp, rfl, happroved⟩
    exact ⟨ResolvedPoll.ofPoll height p,
      List.mem_filter.2 ⟨List.mem_map_of_mem hp, decide_eq_true happroved⟩, rfl⟩

/-- The change that restores the decision on a transaction is taken from its poll. -/
theorem find?_restored (ps : List Poll) (height : Height) (t : Hash) :
    ((ps.map (ResolvedPoll.ofPoll height)).map ResolvedPoll.toResolution).find?
        (fun r => r.key = t)
      = (ps.find? fun p => p.key = t).map fun p => ⟨p.key, p.status, p.tally⟩ := by
  rw [List.find?_map, List.find?_map, Option.map_map]
  rfl

/-! ## In step -/

/-- Exactly the transactions whose polls are approved are released. -/
structure World.InStep (v : World MemoryStore SimulatedLedger) : Prop where
  /-- Everything stands under its own key. -/
  keyed : v.store.Keyed
  /-- Released is what is approved. -/
  released : ∀ t, v.ledger.isReleased t = true ↔
    ∃ p, v.store.polls.find? t = some p ∧ p.status = .approved

namespace World.InStep

variable {v v' : World MemoryStore SimulatedLedger}

/-- Nothing that matters has changed. -/
theorem of_same (h : v.InStep) (hstore : v'.store = v.store)
    (hledger : ∀ t, v'.ledger.isReleased t = v.ledger.isReleased t) : v'.InStep where
  keyed := by
    rw [hstore]
    exact h.keyed
  released t := by
    rw [hstore, hledger]
    exact h.released t

/-- A poll was registered. -/
theorem insertPoll (h : v.InStep) {p : Poll} (hnew : v.store.polls.find? p.key = none)
    (hpending : p.status = .pending)
    (hstore : v'.store = { v.store with polls := v.store.polls.insert p.key p })
    (hledger : v'.ledger = v.ledger) : v'.InStep where
  keyed := by
    rw [hstore]
    exact h.keyed.insertPoll p
  released t := by
    rw [hledger, h.released, hstore, Table.find?_insert]
    by_cases hkey : t = p.key
    · rw [if_pos hkey, hkey, hnew]
      simp [hpending]
    · rw [if_neg hkey]

/-- A vote was cast. -/
theorem insertVote (h : v.InStep) {x : Vote}
    (hstore : v'.store = { v.store with votes := v.store.votes.insert x.id x })
    (hledger : v'.ledger = v.ledger) : v'.InStep where
  keyed := by
    rw [hstore]
    exact h.keyed.insertVote x
  released t := by
    rw [hledger, h.released, hstore]

/-- Some undecided polls are gone. -/
theorem of_sheds (h : v.InStep) {height : Height} (hstore : v.store.Sheds height v'.store)
    (hledger : v'.ledger = v.ledger) : v'.InStep where
  keyed := hstore.keyed h.keyed
  released t := by
    rw [hledger, h.released]
    constructor
    · rintro ⟨p, hp, hstatus⟩
      refine ⟨p, hstore.find?_decided hp ?_, hstatus⟩
      rw [hstatus]
      exact PollStatus.noConfusion
    · rintro ⟨p, hp, hstatus⟩
      exact ⟨p, hstore.find?_polls hp, hstatus⟩

/-- What is approved is released, so that it can be undone. -/
theorem isReleased_approved (h : v.InStep) {height : Height} :
    ∀ t ∈ approvedKeys (v.store.decidedAt height), v.ledger.isReleased t = true := by
  intro t ht
  obtain ⟨p, hp, -, happroved⟩ := (MemoryStore.mem_approvedKeys_decidedAt h.keyed).1 ht
  exact (h.released t).2 ⟨p, hp, happroved⟩

/-- Polls were decided, and those approved released. -/
theorem settle (h : v.InStep) {height : Height} {outcomes : Outcomes}
    (hdecide : outcomes.Decide height v.store) (hstore : v'.store = v.store.settle outcomes)
    (hledger : SimulatedLedger.SetsAll true v.ledger outcomes.approved.reverse v'.ledger) :
    v'.InStep where
  keyed := by
    rw [hstore]
    exact h.keyed.settle outcomes
  released t := by
    rw [hledger.after, hstore, MemoryStore.settle, Table.find?_map]
    simp only [List.mem_reverse, Outcomes.mem_approved]
    cases ho : outcomes.find? t with
    | none =>
      rw [if_neg (by simp), h.released]
      simp
    | some o =>
      -- A poll with an outcome was undecided, and so was not released.
      obtain ⟨p, hp, hheight⟩ := hdecide.keys.1 (Table.contains_iff.2 ⟨o, ho⟩)
      have hpending := hdecide.pending hp hheight
      have hbefore : v.ledger.isReleased t = false := by
        rw [Bool.eq_false_iff, ne_eq, h.released]
        rintro ⟨q, hq, happroved⟩
        cases hp.symm.trans hq
        rw [hpending] at happroved
        cases happroved
      rw [hp, hbefore]
      by_cases happroved : o.status = .approved
      · simp [happroved, Poll.resolve]
      · simp [happroved, Poll.resolve]

/-- Decisions were undone, and with them the releases. -/
theorem undecide (h : v.InStep) {height : Height} (hstore : v'.store = v.store.undecide height)
    (hledger : SimulatedLedger.SetsAll false v.ledger
      (approvedKeys (v.store.decidedAt height)).reverse v'.ledger) : v'.InStep where
  keyed := by
    rw [hstore]
    exact h.keyed.undecide height
  released t := by
    rw [hledger.after, hstore, MemoryStore.undecide, Table.find?_map]
    simp only [List.mem_reverse, MemoryStore.mem_approvedKeys_decidedAt h.keyed]
    cases hp : v.store.polls.find? t with
    | none =>
      rw [if_neg (by simp), h.released]
      simp [hp]
    | some p =>
      have hreleased : v.ledger.isReleased t = true ↔ p.status = .approved := by
        simp [h.released, hp]
      simp only [Option.map_some, Option.some.injEq, exists_eq_left',
        Poll.status_undecide_eq_approved]
      by_cases hheight : p.finishHeight = height
      · by_cases happroved : p.status = .approved <;> simp [hheight, happroved, hreleased]
      · simp [hheight, hreleased]

/-- Decisions that were undone are restored, and with them the releases. -/
theorem restore (h : v.InStep) {s : MemoryStore} (hs : s.Keyed) {height : Height}
    (hpending : ∀ p ∈ s.decidedAt height, ∀ q, v.store.polls.find? p.key = some q →
      q.status = .pending)
    (hstored : ∀ p ∈ s.decidedAt height, v.store.polls.contains p.key = true)
    (hstore : v'.store = v.store.write (((s.decidedAt height).map (ResolvedPoll.ofPoll height)).map
      ResolvedPoll.toResolution))
    (hledger : SimulatedLedger.SetsAll true v.ledger
      (restoredKeys ((s.decidedAt height).map (ResolvedPoll.ofPoll height))).reverse v'.ledger) :
    v'.InStep where
  keyed := by
    rw [hstore]
    exact h.keyed.mapPolls fun _ _ => by split <;> rfl
  released t := by
    rw [hledger.after, hstore, MemoryStore.write, Table.find?_map, find?_restored]
    simp only [List.mem_reverse, mem_restoredKeys]
    cases hfound : (s.decidedAt height).find? (fun p => p.key = t) with
    | none =>
      have hnone : ¬ ∃ p ∈ s.decidedAt height, p.key = t ∧ p.status = .approved := by
        rintro ⟨p, hp, hkey, -⟩
        have hother := List.find?_eq_none.1 hfound p hp
        exact hother (decide_eq_true hkey)
      rw [if_neg hnone, h.released]
      simp
    | some p =>
      -- A poll that is restored was undecided in between, and so was not released.
      have hp := List.mem_of_find?_eq_some hfound
      have hkey : p.key = t := by simpa using List.find?_some hfound
      obtain ⟨q, hq⟩ := Table.contains_iff.1 (hstored p hp)
      have hbefore : v.ledger.isReleased t = false := by
        rw [Bool.eq_false_iff, ne_eq, h.released]
        rintro ⟨q', hq', happroved⟩
        rw [hpending p hp q' (hkey ▸ hq')] at happroved
        cases happroved
      have honly : (∃ p' ∈ s.decidedAt height, p'.key = t ∧ p'.status = .approved) ↔
          p.status = .approved := by
        constructor
        · rintro ⟨p', hp', hkey', happroved⟩
          have hfind := ((MemoryStore.mem_decidedAt hs).1 hp').1
          rw [hkey', ← hkey, ((MemoryStore.mem_decidedAt hs).1 hp).1] at hfind
          cases hfind
          exact happroved
        · intro happroved
          exact ⟨p, hp, hkey, happroved⟩
      rw [hkey] at hq
      rw [hq, hbefore]
      simp [honly, Poll.resolve]

end World.InStep

/-- **The approvals of a height can be undone** if nothing stands in the way of undoing any one of
them. -/
theorem exists_undoAll_approved {v : World MemoryStore SimulatedLedger} (hs : v.store.Keyed)
    {height : Height} (h : ∀ t ∈ approvedKeys (v.store.decidedAt height), v.ledger.Undoable t) :
    ∃ l, (undoAll (approvedKeys (v.store.decidedAt height))).start v.ledger = (.ok (), l) :=
  SimulatedLedger.exists_undoAll
    ((MemoryStore.nodup_decidedAt hs height).sublist (List.filter_sublist.map _)) h

/-! ## The operations -/

section

variable [PollStore S] [VoteStore S] [FaithfulStore S] {w : World S SimulatedLedger}

/-- **Resolving** keeps store and ledger in step. -/
theorem resolveHeight_inStep (hw : w.view.InStep) {height : Height}
    (hclean : resolvesCleanly height w = true) :
    (resolveHeight height).wp (fun _ w' => w'.view.InStep) (fun _ w' => w'.view.InStep) w := by
  have hread := decideHeight_yields (S := S) hw.keyed height
  rw [resolveHeight_eq, Action.wp_bind]
  rcases hx : (decideHeight height).start w with ⟨e | r, w₁⟩
  · refine (Action.wp_of_start_error hx).2 ?_
    rw [(hread.of_error hx).1]
    exact hw
  · refine (Action.wp_of_start_ok hx).2 ?_
    obtain ⟨hview, hr⟩ := hread.of_ok hx
    cases r with
    | none =>
      show w₁.view.InStep
      rw [hview]
      exact hw
    | some r =>
      obtain ⟨polls, outcomes⟩ := r
      have hledger := World.ledger_of_view hview
      rw [resolvesCleanly, hx] at hclean
      refine (Action.wp_bind _ _ _).2 ((SimulatedLedger.release_cleanly outcomes.nodup_resolutions
        hclean).mono ?_ ?_)
      · rintro _ w₂ ⟨⟨hstore, -⟩, hsets⟩
        rw [hview, MemoryStore.write_resolutions] at hstore
        rw [hledger] at hsets
        exact hw.settle hr.2 hstore hsets
      · rintro _ w₂ ⟨hstore, hsets⟩
        rw [hview] at hstore
        rw [hledger] at hsets
        exact hw.of_same hstore fun t => (hsets.after t).trans (if_neg List.not_mem_nil)

/-- **A clean undoing** undoes the decisions of the height with all of their releases, or
neither. -/
theorem undoHeight_cleanly (hs : w.view.store.Keyed) {height : Height}
    (hclean : undoesCleanly height w = true) :
    (undoHeight height).wp
      (fun reverted w' =>
        reverted = (w.view.store.decidedAt height).map (ResolvedPoll.ofPoll height) ∧
        w'.view.store = w.view.store.undecide height ∧
        SimulatedLedger.SetsAll false w.ledger
          (approvedKeys (w.view.store.decidedAt height)).reverse w'.ledger)
      (fun _ w' => w'.view.store = w.view.store ∧
        SimulatedLedger.SetsAll false w.ledger [] w'.ledger) w := by
  have hread := decidedAt_yields (S := S) (v := w.view) height
  have hreset : w.view.store.write ((w.view.store.decidedAt height).map Poll.reset)
      = w.view.store.undecide height :=
    MemoryStore.write_reset hs fun p => MemoryStore.mem_decidedAt hs
  rw [undoHeight_eq, Action.wp_bind]
  rcases hx : (decidedAt height).start w with ⟨e | ps, w₁⟩
  · refine (Action.wp_of_start_error hx).2 ?_
    have hview := (hread.of_error hx).1
    rw [hview]
    exact ⟨rfl, World.ledger_of_view hview ▸ .nil _ _⟩
  · refine (Action.wp_of_start_ok hx).2 ?_
    obtain ⟨hview, rfl⟩ := hread.of_ok hx
    have hledger := World.ledger_of_view hview
    split
    · rename_i hempty
      have hnil := List.isEmpty_iff.1 hempty
      rw [hnil] at hreset ⊢
      refine ⟨rfl, ?_, hledger ▸ .nil _ _⟩
      rw [hview, ← hreset]
      exact (MemoryStore.write_nil _).symm
    · rw [undoesCleanly, hx] at hclean
      refine (Action.wp_bind _ _ _).2 ((SimulatedLedger.undo_cleanly
        (MemoryStore.nodup_resets hs height) hclean).mono ?_ ?_)
      · rintro _ w₂ ⟨⟨hstore, -⟩, hsets⟩
        rw [hview, hreset] at hstore
        rw [hledger] at hsets
        exact ⟨rfl, hstore, hsets⟩
      · rintro _ w₂ ⟨hstore, hsets⟩
        rw [hview] at hstore
        rw [hledger] at hsets
        exact ⟨hstore, hsets⟩

/-- **Undoing** keeps store and ledger in step. -/
theorem undoHeight_inStep (hw : w.view.InStep) {height : Height}
    (hclean : undoesCleanly height w = true) :
    (undoHeight height).wp (fun _ w' => w'.view.InStep) (fun _ w' => w'.view.InStep) w := by
  refine (undoHeight_cleanly hw.keyed hclean).mono ?_ ?_
  · rintro _ w' ⟨-, hstore, hsets⟩
    exact hw.undecide hstore hsets
  · rintro _ w' ⟨hstore, hsets⟩
    exact hw.of_same hstore fun t => (hsets.after t).trans (if_neg List.not_mem_nil)

/-- **Restoring** what was undone keeps store and ledger in step. -/
theorem restore_inStep (hw : w.view.InStep) {s : MemoryStore} (hs : s.Keyed) {height : Height}
    (hpending : ∀ p ∈ s.decidedAt height, ∀ q, w.view.store.polls.find? p.key = some q →
      q.status = .pending)
    (hclean : restoresCleanly ((s.decidedAt height).map (ResolvedPoll.ofPoll height)) w = true) :
    (restore ((s.decidedAt height).map (ResolvedPoll.ofPoll height))).wp
      (fun _ w' => w'.view.InStep) (fun _ w' => w'.view.InStep) w := by
  have hnodup : ((((s.decidedAt height).map (ResolvedPoll.ofPoll height)).map
      ResolvedPoll.toResolution).map Resolution.key).Nodup := by
    rw [List.map_map, List.map_map]
    exact MemoryStore.nodup_decidedAt hs height
  refine (SimulatedLedger.release_cleanly hnodup hclean).mono ?_ ?_
  · rintro _ w' ⟨⟨hstore, hstored⟩, hsets⟩
    exact hw.restore hs hpending
      (fun p hp => hstored _ (List.mem_map_of_mem (List.mem_map_of_mem hp))) hstore hsets
  · rintro _ w' ⟨hstore, hsets⟩
    exact hw.of_same hstore fun t => (hsets.after t).trans (if_neg List.not_mem_nil)

/-- **Taking a block back** keeps store and ledger in step. -/
theorem popHeight_inStep (hw : w.view.InStep) {height : Height}
    (hclean : popsCleanly height w = true) :
    (popHeight height).wp (fun _ w' => w'.view.InStep) (fun _ w' => w'.view.InStep) w := by
  have hcheck := checkRollbackAt_yields (S := S) hw.keyed height
  rw [popHeight, Action.wp_bind]
  rcases hx₁ : (checkRollbackAt height).start w with ⟨e | keys, w₁⟩
  · refine (Action.wp_of_start_error hx₁).2 ?_
    rw [(hcheck.of_error hx₁).1]
    exact hw
  · refine (Action.wp_of_start_ok hx₁).2 ?_
    obtain ⟨hview, -, hpending⟩ := hcheck.of_ok hx₁
    rw [popsCleanly, hx₁, Bool.and_eq_true] at hclean
    obtain ⟨hundoes, hrestores⟩ := hclean
    have hw₁ : w₁.view.InStep := by rwa [hview]
    have hundo := undoHeight_yields (S := S) hw₁.keyed height
    have hkept := undoHeight_inStep hw₁ hundoes
    rw [Action.wp_bind]
    rcases hx₂ : (undoHeight height).start w₁ with ⟨e | reverted, w₂⟩
    · exact (Action.wp_of_start_error hx₂).2 (hkept.of_error hx₂)
    · refine (Action.wp_of_start_ok hx₂).2 ?_
      have hw₂ := hkept.of_ok hx₂
      obtain ⟨rfl, hstore, -⟩ := hundo.of_ok hx₂
      have hdrop := dropContents_yields (S := S) hw₂.keyed height
      rw [Action.wp_bind, Action.wp_outcome]
      rcases hx₃ : (dropContents height).start w₂ with ⟨e | ⟨⟩, w₃⟩
      · refine (Action.wp_of_start_error hx₃).2 ?_
        obtain ⟨-, hledger, hsheds⟩ := hdrop.of_error hx₃
        have hsheds := hsheds (by
          rw [hstore, hview]
          exact hpending.undecide height)
        have hw₃ : w₃.view.InStep := hw₂.of_sheds hsheds hledger
        -- What was decided at the height has been undone, and stays so until it is restored.
        have hundone : ∀ p ∈ w₁.view.store.decidedAt height, ∀ q,
            w₃.view.store.polls.find? p.key = some q → q.status = .pending := by
          intro p hp q hq
          obtain ⟨hfind, hdecided⟩ := (MemoryStore.mem_decidedAt hw₁.keyed).1 hp
          have hq₂ := hsheds.find?_polls hq
          rw [hstore, MemoryStore.undecide, Table.find?_map, hfind] at hq₂
          cases hq₂
          rw [Poll.undecide, if_pos hdecided]
          rfl
        rw [hx₂] at hrestores
        dsimp only at hrestores
        rw [hx₃] at hrestores
        refine (Action.wp_bind _ _ _).2 ((Action.wp_outcome _ _).2 ?_)
        exact (restore_inStep hw₃ hw₁.keyed hundone hrestores).mono
          (fun _ _ h => h) fun _ _ h => h
      · refine (Action.wp_of_start_ok hx₃).2 ?_
        obtain ⟨hdropped, hundecided⟩ := hdrop.of_ok hx₃
        have hsheds := MemoryStore.sheds_dropBlock hw₂.keyed hundecided
        show w₃.view.InStep
        rw [hdropped]
        exact hw₂.of_sheds hsheds rfl

end

end Finality
