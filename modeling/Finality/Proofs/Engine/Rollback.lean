import Finality.Engine.Rollback
import Finality.Proofs.Engine.Resolution
import Finality.Proofs.Engine.Voting

/-!
# What taking a block back does

* `MemoryStore.Sheds` — what may be gone from a store when removing the contents of a block has
  failed half way: votes and undecided polls of that block, and nothing else.
* `dropContents_yields` — the votes and polls of the block are removed, all of them or, on failure,
  some.
* `popHeight_yields` — over a store that does not fail, a block is taken back entirely or not at
  all, and the latter only for a reason that store or ledger show.
-/

namespace Finality

variable {S L : Type} [PollStore S] [VoteStore S] [FaithfulStore S] {v : World MemoryStore L}

/-- What the store is like when taking back the block at a height fails with an error. -/
def EngineError.RollbackCause (s : MemoryStore) (height : Height) (fallible : Prop) :
    EngineError → Prop
  | .consistency (.rollbackOfResolved key h) => h = height ∧
    ∃ p, s.polls.find? key = some p ∧ p.createdHeight = height ∧ p.status ≠ .pending
  | .store _ => fallible
  | _ => False

omit [PollStore S] [VoteStore S] [FaithfulStore S] in
/-- Whatever makes taking a block back fail is fatal. -/
theorem EngineError.isFatal_of_popping {s : MemoryStore} {height : Height} {fallible : Prop}
    {e : EngineError} (h : e.RollbackCause s height fallible ∨ ∃ e', e = .ledger e') :
    e.isFatal = true := by
  cases e with
  | registration e =>
    rcases h with h | ⟨e', he'⟩
    · exact h.elim
    · cases he'
  | _ => rfl

/-- The polls created at a height are all undecided. -/
def MemoryStore.UndecidedSince (height : Height) (s : MemoryStore) : Prop :=
  ∀ {key p}, s.polls.find? key = some p → p.createdHeight = height → p.status = .pending

namespace MemoryStore

/-- The second store is the first without some of the votes and some of the undecided polls of the
block at a height. -/
structure Sheds (height : Height) (s s' : MemoryStore) : Prop where
  /-- A poll is as it was, or is gone and was an undecided one of the block. -/
  polls : ∀ key, s'.polls.find? key = s.polls.find? key ∨ (s'.polls.find? key = none ∧
    ∀ p, s.polls.find? key = some p → p.createdHeight = height ∧ p.status = .pending)
  /-- A vote is as it was, or is gone and was one of the block. -/
  votes : ∀ id, s'.votes.find? id = s.votes.find? id ∨ (s'.votes.find? id = none ∧
    ∀ x, s.votes.find? id = some x → x.height = height)

namespace Sheds

variable {height : Height} {s s' s'' : MemoryStore}

theorem refl (height : Height) (s : MemoryStore) : Sheds height s s where
  polls _ := .inl rfl
  votes _ := .inl rfl

/-- A poll that is left was there before. -/
theorem find?_polls (h : Sheds height s s') {key : Hash} {p : Poll}
    (hp : s'.polls.find? key = some p) : s.polls.find? key = some p := by
  rcases h.polls key with hsame | ⟨hgone, -⟩
  · rwa [← hsame]
  · rw [hgone] at hp
    cases hp

/-- A vote that is left was there before. -/
theorem find?_votes (h : Sheds height s s') {id : VoteKey} {x : Vote}
    (hx : s'.votes.find? id = some x) : s.votes.find? id = some x := by
  rcases h.votes id with hsame | ⟨hgone, -⟩
  · rwa [← hsame]
  · rw [hgone] at hx
    cases hx

theorem trans (h : Sheds height s s') (h' : Sheds height s' s'') : Sheds height s s'' where
  polls := by
    intro key
    rcases h'.polls key with hsame | ⟨hgone, hpending⟩
    · rw [hsame]
      exact h.polls key
    · refine .inr ⟨hgone, fun p hp => ?_⟩
      rcases h.polls key with hsame | ⟨-, hpending'⟩
      · exact hpending p (hsame.trans hp)
      · exact hpending' p hp
  votes := by
    intro id
    rcases h'.votes id with hsame | ⟨hgone, hcast⟩
    · rw [hsame]
      exact h.votes id
    · refine .inr ⟨hgone, fun x hx => ?_⟩
      rcases h.votes id with hsame | ⟨-, hcast'⟩
      · exact hcast x (hsame.trans hx)
      · exact hcast' x hx

/-- A poll that was decided is left. -/
theorem find?_decided (h : Sheds height s s') {key : Hash} {p : Poll}
    (hp : s.polls.find? key = some p) (hdecided : p.status ≠ .pending) :
    s'.polls.find? key = some p := by
  rcases h.polls key with hsame | ⟨-, hpending⟩
  · rwa [hsame]
  · exact absurd (hpending p hp).2 hdecided

theorem keyed (h : Sheds height s s') (hs : s.Keyed) : s'.Keyed where
  polls hp := hs.polls (h.find?_polls hp)
  votes hx := hs.votes (h.find?_votes hx)

/-- Removing votes of the block one by one, and undecided polls of the block. -/
theorem of_eraseAll (hs : s.Keyed) (hpending : s.UndecidedSince height) {keys : List Hash}
    {ids : List VoteKey}
    (hkeys : keys ⊆ (s.pollsWhere (·.createdHeight = height)).map Poll.key)
    (hids : ids ⊆ (s.votesCastAt height).map fun id => ⟨id.1, id.2⟩) :
    Sheds height s ⟨s.polls.eraseAll keys, s.votes.eraseAll ids⟩ where
  polls := by
    intro key
    rw [Table.find?_eraseAll]
    by_cases hkey : key ∈ keys
    · refine .inr ⟨if_pos hkey, fun p hp => ?_⟩
      obtain ⟨q, hq, hcreated⟩ := (mem_pollsCreatedAt hs).1 (hkeys hkey)
      cases hp.symm.trans hq
      exact ⟨hcreated, hpending hp hcreated⟩
    · exact .inl (if_neg hkey)
  votes := by
    intro id
    rw [Table.find?_eraseAll]
    by_cases hid : id ∈ ids
    · refine .inr ⟨if_pos hid, fun x hx => ?_⟩
      obtain ⟨⟨poll, voter⟩, hcast, rfl⟩ := List.mem_map.1 (hids hid)
      obtain ⟨y, hy, hheight⟩ := (mem_votesCastAt hs).1 hcast
      cases hx.symm.trans hy
      exact hheight
    · exact .inl (if_neg hid)

end Sheds

/-- Undoing decisions leaves the other polls undecided that were. -/
theorem UndecidedSince.undecide {s : MemoryStore} {created : Height}
    (h : s.UndecidedSince created) (height : Height) :
    (s.undecide height).UndecidedSince created := by
  intro key p hp hcreated
  rw [MemoryStore.undecide, Table.find?_map, Option.map_eq_some_iff] at hp
  obtain ⟨q, hq, rfl⟩ := hp
  unfold Poll.undecide at hcreated ⊢
  split at hcreated
  · rw [if_pos ‹_›]
    rfl
  · rw [if_neg ‹_›]
    exact h hq hcreated

end MemoryStore

omit [PollStore S] [VoteStore S] [FaithfulStore S] in
/-- If the polls of the block are undecided, only a store that may fail makes taking it back
fail. -/
theorem EngineError.RollbackCause.fallible {s : MemoryStore} {height : Height} {fallible : Prop}
    {e : EngineError} (h : e.RollbackCause s height fallible)
    (hpending : s.UndecidedSince height) : fallible ∧ ∃ e', e = .store e' := by
  cases e with
  | registration e => exact h.elim
  | ledger e => exact h.elim
  | store e => exact ⟨h, e, rfl⟩
  | consistency e =>
    cases e with
    | rollbackOfResolved key created =>
      obtain ⟨-, p, hp, hcreated, hdecided⟩ := h
      exact absurd (hpending hp hcreated) hdecided
    | _ => exact h.elim

/-! ## Removing the contents of a block -/

theorem checkUndecided_yields (height : Height) (keys : List Hash)
    (hkeys : ∀ key ∈ keys, ∃ p, v.store.polls.find? key = some p ∧ p.createdHeight = height) :
    Yields (S := S) (checkUndecided height keys) v
      (fun _ v' => v' = v ∧ ∀ key ∈ keys, ∀ p, v.store.polls.find? key = some p →
        p.status = .pending)
      (fun e v' => v' = v ∧ e.RollbackCause v.store height (FaithfulStore.fallible S)) := by
  have hloop : Yields (S := S) (checkUndecided height keys) v
      (fun _ v' => v' = v ∧ (∀ key ∈ ([] : List Hash), key ∈ keys) ∧ ∀ key ∈ keys, key ∉ [] →
        ∀ p, v.store.polls.find? key = some p → p.status = .pending)
      (fun e v' => v' = v ∧ e.RollbackCause v.store height (FaithfulStore.fallible S)) := by
    unfold checkUndecided
    refine Yields.forM (I := fun ahead v' => v' = v ∧ (∀ key ∈ ahead, key ∈ keys) ∧
      ∀ key ∈ keys, key ∉ ahead → ∀ p, v.store.polls.find? key = some p → p.status = .pending) ?_
      ⟨rfl, fun _ h => h, fun key hkey hnot => absurd hkey hnot⟩
    rintro key ahead _ ⟨rfl, hsub, hchecked⟩
    obtain ⟨p, hp, hcreated⟩ := hkeys key (hsub key (List.mem_cons_self ..))
    refine .bind (.inStore (yields_findPoll (fun hf e => ⟨rfl, hf⟩) ?_))
    rw [hp]
    dsimp only
    have hrest : ∀ key ∈ ahead, key ∈ keys := fun k hk => hsub k (List.mem_cons_of_mem _ hk)
    split
    · rename_i hdecided
      exact .throw ⟨rfl, rfl, p, hp, hcreated, by simpa [Poll.isPending] using hdecided⟩
    · rename_i hpending
      refine .pure ⟨rfl, hrest, fun key' hkey' hahead q hq => ?_⟩
      by_cases heq : key' = key
      · rw [heq, hp] at hq
        cases hq
        simpa [Poll.isPending] using hpending
      · exact hchecked key' hkey' (by simp [heq, hahead]) q hq
  exact hloop.mono (fun _ _ h => ⟨h.1, fun key hkey => h.2.2 key hkey List.not_mem_nil⟩)
    fun _ _ he => he

theorem checkRollbackAt_yields (hs : v.store.Keyed) (height : Height) :
    Yields (S := S) (checkRollbackAt height) v
      (fun keys v' => v' = v ∧
        keys = (v.store.pollsWhere (·.createdHeight = height)).map Poll.key ∧
        v.store.UndecidedSince height)
      (fun e v' => v' = v ∧ e.RollbackCause v.store height (FaithfulStore.fallible S)) := by
  unfold checkRollbackAt
  refine .bind (.inStore (yields_pollsCreatedAt (fun hf e => ⟨rfl, hf⟩) ?_))
  refine .bind ((checkUndecided_yields height _ fun key hkey =>
    (MemoryStore.mem_pollsCreatedAt hs).1 hkey).mono ?_ fun _ _ he => he)
  rintro _ _ ⟨rfl, hpending⟩
  refine .pure ⟨rfl, rfl, fun {key p} hp hcreated => ?_⟩
  exact hpending key ((MemoryStore.mem_pollsCreatedAt hs).2 ⟨p, hp, hcreated⟩) p hp

/-- Removing polls one by one removes them all; if the store fails, some of them. -/
theorem deletePolls_yields (keys : List Hash) (v : World MemoryStore L) :
    Yields (S := S) (keys.forM fun key => do
        let _ ← inStore (PollStore.deletePoll key)) v
      (fun _ v' => v' = { v with store := { v.store with polls := v.store.polls.eraseAll keys } })
      (fun e v' => (∃ e', e = .store e') ∧ FaithfulStore.fallible S ∧ ∃ keys' ⊆ keys,
        v' = { v with store := { v.store with polls := v.store.polls.eraseAll keys' } }) := by
  induction keys generalizing v with
  | nil => exact .pure rfl
  | cons key keys ih =>
    change Yields ((do let _ ← inStore (PollStore.deletePoll key)) >>= fun _ =>
      keys.forM fun key => do let _ ← inStore (PollStore.deletePoll key)) v _ _
    refine .bind (.bind (.inStore (yields_deletePoll
      (fun hf e => ⟨⟨e, rfl⟩, hf, [], List.nil_subset _, rfl⟩) ?_)))
    refine .pure ((ih _).mono (fun _ _ h => h) ?_)
    rintro e v' ⟨he, hf, keys', hsub, hv'⟩
    exact ⟨he, hf, key :: keys', List.cons_subset_cons key hsub, hv'⟩

/-- **Removing the contents of a block** removes its votes and its polls.  If it fails, the ledger
is still as it was, and some votes and undecided polls of the block may be gone. -/
theorem dropContents_yields (hs : v.store.Keyed) (height : Height) :
    Yields (S := S) (dropContents height) v
      (fun _ v' => v' = { v with store := v.store.dropBlock height } ∧
        v.store.UndecidedSince height)
      (fun e v' => e.RollbackCause v.store height (FaithfulStore.fallible S) ∧
        v'.ledger = v.ledger ∧
        (v.store.UndecidedSince height → v.store.Sheds height v'.store)) := by
  unfold dropContents
  refine .bind ((rollbackVotesAt_yields height).mono ?_ ?_)
  · rintro _ _ rfl
    have hkeyed : MemoryStore.Keyed { v.store with
        votes := v.store.votes.eraseAll
          ((v.store.votesCastAt height).map fun id => ⟨id.1, id.2⟩) } := by
      refine ⟨hs.polls, fun {id x} hx => ?_⟩
      rw [Table.find?_eraseAll] at hx
      split at hx
      · cases hx
      · exact hs.votes hx
    unfold rollbackRegistrationsAt
    refine .bind (.bind ((checkRollbackAt_yields hkeyed height).mono ?_ ?_))
    · rintro keys _ ⟨rfl, rfl, hpending⟩
      refine .bind ((deletePolls_yields _ _).mono ?_ ?_)
      · rintro _ _ rfl
        refine .pure (.pure ⟨?_, hpending⟩)
        rw [← MemoryStore.eraseAll_eq_dropBlock hs]
        rfl
      · rintro e v' ⟨⟨e, rfl⟩, hf, keys, hsub, rfl⟩
        exact ⟨hf, rfl, fun h => .of_eraseAll hs h hsub (List.Subset.refl _)⟩
    · rintro e _ ⟨rfl, he⟩
      exact ⟨he, rfl, fun h => .of_eraseAll hs h (List.nil_subset _) (List.Subset.refl _)⟩
  · rintro e v' ⟨⟨e, rfl⟩, hf, ids, hsub, rfl⟩
    exact ⟨hf, rfl, fun h => .of_eraseAll hs h (List.nil_subset _) hsub⟩

omit [PollStore S] [VoteStore S] [FaithfulStore S] in
/-- A block of undecided polls is some votes and some undecided polls. -/
theorem MemoryStore.sheds_dropBlock {s : MemoryStore} (hs : s.Keyed) {height : Height}
    (hpending : s.UndecidedSince height) : s.Sheds height (s.dropBlock height) := by
  rw [← eraseAll_eq_dropBlock hs]
  exact .of_eraseAll hs hpending (List.Subset.refl _) (List.Subset.refl _)

/-! ## Taking a block back -/

variable [Ledger L]

/-- **Taking a block back**, over a store that does not fail: the decisions of its height are
undone and its votes and polls removed, or all is as it was.  The ledger is left alone too, unless
it is the one that fails. -/
theorem popHeight_yields (hs : v.store.Keyed) (hsafe : ¬ FaithfulStore.fallible S)
    (height : Height) :
    Yields (S := S) (popHeight height) v
      (fun reverted v' =>
        reverted = (v.store.decidedAt height).map (ResolvedPoll.ofPoll height) ∧
        v'.store = v.store.takeBack height ∧
        (undoAll (approvedKeys (v.store.decidedAt height))).start v.ledger = (.ok (), v'.ledger))
      (fun e v' => v'.store = v.store ∧
        ((v'.ledger = v.ledger ∧ e.RollbackCause v.store height False) ∨
          ∃ e', e = .ledger e' ∧ (undoAll (approvedKeys (v.store.decidedAt height))).start v.ledger
            = (.error e, v'.ledger))) := by
  unfold popHeight
  refine .bind ((checkRollbackAt_yields hs height).mono ?_ ?_)
  · rintro keys _ ⟨rfl, rfl, hpending⟩
    refine .bind ((undoHeight_yields hs height).mono ?_ ?_)
    · rintro reverted v₁ ⟨rfl, hstore, hundo⟩
      have hkeyed : v₁.store.Keyed := by
        rw [hstore]
        exact hs.undecide height
      refine .bind (.outcome ((dropContents_yields hkeyed height).mono ?_ ?_))
      · rintro _ _ ⟨rfl, -⟩
        refine .pure ⟨rfl, ?_, hundo⟩
        rw [hstore]
        rfl
      · -- Nothing can go wrong any more: the polls of the block were undecided before the undoing.
        rintro e v₂ ⟨hcause, -⟩
        rw [hstore] at hcause
        exact absurd (hcause.fallible (hpending.undecide height)).1 hsafe
    · rintro e v₁ ⟨hstore, hf | hundo⟩
      · exact absurd hf hsafe
      · exact ⟨hstore, .inr hundo⟩
  · rintro e _ ⟨rfl, he⟩
    rw [eq_false hsafe] at he
    exact ⟨rfl, .inl ⟨rfl, he⟩⟩

end Finality
