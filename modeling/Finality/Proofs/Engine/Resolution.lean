import Finality.Proofs.Engine.Commit
import Finality.Proofs.Engine.Decision
import Mathlib.Data.List.Basic

/-!
# What resolving and undoing do

`resolveHeight` and `undoHeight` first read (`decideHeight`, `decidedAt`) and then commit.

* `Outcomes.Decide` — outcomes for exactly the polls that are due at a height, all of them
  undecided until now.
* `Outcomes.Decide.resolved_eq`, `Outcomes.Decide.decidedAt_settle` — the answer of a resolution,
  and of its undoing, as what the store says of the polls in between.
* `resolveHeight_yields` — resolving gives the polls due at the height such outcomes, or leaves the
  polls alone for a reason that the store shows (`EngineError.ResolutionCause`).
* `undoHeight_yields` — undoing sets the polls decided at the height back to pending, or leaves the
  polls alone.
-/

namespace Finality

variable {σ S L : Type}

/-! ## Reading, then committing -/

/-- The polls due at a height with their outcomes; none if no poll is due. -/
def decideHeight [PollStore σ] [VoteStore σ] (height : Height) :
    Action σ EngineError (Option (List Poll × Outcomes)) := do
  let polls ← inStore (PollStore.pollsFinishingAt height)
  match polls.find? fun p => !p.isPending with
  | some p => throw (.consistency (.doubleResolution p.key height))
  | none =>
    if polls.isEmpty then return none
    let outcomes ← decidePolls polls height
    return some (polls, outcomes)

theorem resolveHeight_eq [PollStore σ] [VoteStore σ] [Ledger σ] (height : Height) :
    (resolveHeight height : Action σ EngineError (List ResolvedPoll)) = (do
      match ← decideHeight height with
      | none => return []
      | some (polls, outcomes) => do
        commit Ledger.applyRelease Ledger.undoRelease outcomes.approved outcomes.resolutions
        return outcomes.resolved polls height) := by
  rw [resolveHeight, decideHeight, bind_assoc]
  refine bind_congr fun polls => ?_
  cases polls.find? fun p => !p.isPending with
  | some p => rfl
  | none =>
    cases polls.isEmpty with
    | true => rfl
    | false =>
      change (decidePolls polls height >>= _) = (decidePolls polls height >>= _) >>= _
      rw [bind_assoc]
      refine bind_congr fun outcomes => ?_
      rw [pure_bind]
      dsimp only
      rw [commit, bind_assoc]
      rfl

/-- The decided polls of a height, in descending order. -/
def decidedAt [PollStore σ] (height : Height) : Action σ EngineError (List Poll) := do
  let polls ← inStore (PollStore.pollsFinishingAt height)
  return sortBy (fun p q => compare q.key p.key) (polls.filter fun p => p.status.isResolved)

/-- The transactions of the approved polls among these. -/
def approvedKeys (polls : List Poll) : List Hash :=
  (polls.filter fun p => p.status = .approved).map Poll.key

theorem undoHeight_eq [PollStore σ] [Ledger σ] (height : Height) :
    (undoHeight height : Action σ EngineError (List ResolvedPoll)) = (do
      let resolved ← decidedAt height
      if resolved.isEmpty then return []
      commit Ledger.undoRelease Ledger.applyRelease (approvedKeys resolved)
        (resolved.map Poll.reset)
      return resolved.map (ResolvedPoll.ofPoll height)) := by
  rw [undoHeight, decidedAt, bind_assoc]
  refine bind_congr fun polls => ?_
  rw [pure_bind]
  dsimp only
  have hempty := (sortBy_perm (fun p q : Poll => compare q.key p.key)
    (polls.filter fun p => p.status.isResolved)).isEmpty_eq
  rw [hempty]
  split
  · rfl
  · rw [commit, bind_assoc]
    rfl

/-! ## Outcomes -/

/-- These are the outcomes of the polls due at a height, all of them undecided until now. -/
structure Outcomes.Decide (outcomes : Outcomes) (height : Height) (s : MemoryStore) : Prop where
  /-- Polls due at the height are undecided. -/
  pending : ∀ {key p}, s.polls.find? key = some p → p.finishHeight = height → p.status = .pending
  /-- Exactly those polls have an outcome. -/
  keys : ∀ {key}, outcomes.contains key = true ↔
    ∃ p, s.polls.find? key = some p ∧ p.finishHeight = height
  /-- It is the right one. -/
  warrants : ∀ {key p o}, s.polls.find? key = some p → outcomes.find? key = some o →
    outcomes.Warrants s p o

namespace Outcomes

/-- Outcomes are decisions. -/
theorem Decide.resolved {outcomes : Outcomes} {height : Height} {s : MemoryStore}
    (h : outcomes.Decide height s) {key : Hash} {o : Outcome} (ho : outcomes.find? key = some o) :
    o.status.isResolved = true := by
  obtain ⟨p, hp, -⟩ := h.keys.1 (Table.contains_iff.2 ⟨o, ho⟩)
  exact (h.warrants hp ho).resolved

/-- If no poll is due, there is nothing to decide. -/
theorem decide_empty {height : Height} {s : MemoryStore}
    (h : s.pollsWhere (·.finishHeight = height) = []) : Outcomes.Decide ∅ height s := by
  have hnone : ∀ {key p}, s.polls.find? key = some p → p.finishHeight ≠ height := by
    intro key p hp hheight
    have hmem : p ∈ s.pollsWhere (·.finishHeight = height) :=
      MemoryStore.mem_pollsWhere.2 ⟨⟨key, hp⟩, by simpa using hheight⟩
    rw [h] at hmem
    cases hmem
  refine ⟨fun hp hheight => absurd hheight (hnone hp), fun {key} => ⟨fun h => ?_, ?_⟩, ?_⟩
  · cases h
  · rintro ⟨p, hp, hheight⟩
    exact absurd hheight (hnone hp)
  · intro key p o hp ho
    cases ho

theorem mem_approved {outcomes : Outcomes} {key : Hash} :
    key ∈ outcomes.approved ↔ ∃ o, outcomes.find? key = some o ∧ o.status = .approved := by
  rw [approved, List.mem_map]
  constructor
  · rintro ⟨⟨key, o⟩, he, rfl⟩
    obtain ⟨hmem, hstatus⟩ := List.mem_filter.1 he
    exact ⟨o, (outcomes.mem_entries_iff key o).1 hmem, by simpa using hstatus⟩
  · rintro ⟨o, ho, hstatus⟩
    have hmem := (outcomes.mem_entries_iff key o).2 ho
    exact ⟨(key, o), List.mem_filter.2 ⟨hmem, by simpa using hstatus⟩, rfl⟩

theorem nodup_resolutions (outcomes : Outcomes) :
    (outcomes.resolutions.map Resolution.key).Nodup := by
  rw [resolutions, List.map_map]
  exact outcomes.nodup_keys

theorem mem_resolutions {outcomes : Outcomes} {r : Resolution} :
    r ∈ outcomes.resolutions ↔ outcomes.find? r.key = some ⟨r.status, r.tally⟩ := by
  rw [resolutions, List.mem_map]
  constructor
  · rintro ⟨⟨key, o⟩, he, rfl⟩
    exact (outcomes.mem_entries_iff key o).1 he
  · intro hr
    exact ⟨(r.key, ⟨r.status, r.tally⟩), (outcomes.mem_entries_iff _ _).2 hr, rfl⟩

end Outcomes

namespace MemoryStore

/-- The store after polls were decided with these outcomes. -/
def settle (outcomes : Outcomes) (s : MemoryStore) : MemoryStore :=
  { s with
    polls := s.polls.map fun key p =>
      match outcomes.find? key with
      | some o => p.resolve ⟨key, o.status, o.tally⟩
      | none => p }

/-- Writing the changes that outcomes call for decides the polls. -/
theorem write_resolutions (outcomes : Outcomes) (s : MemoryStore) :
    s.write outcomes.resolutions = s.settle outcomes := by
  have hpolls : (s.write outcomes.resolutions).polls = (s.settle outcomes).polls := by
    refine Table.ext_find? fun key => ?_
    rw [write, settle, Table.find?_map, Table.find?_map]
    congr 1
    funext p
    cases ho : outcomes.find? key with
    | none =>
      have hnone : outcomes.resolutions.find? (fun r => r.key = key) = none := by
        refine List.find?_eq_none.2 fun r hr hkey => ?_
        rw [Outcomes.mem_resolutions, of_decide_eq_true hkey, ho] at hr
        cases hr
      rw [hnone]
    | some o =>
      have hmem : (⟨key, o.status, o.tally⟩ : Resolution) ∈ outcomes.resolutions :=
        Outcomes.mem_resolutions.2 ho
      cases hr : outcomes.resolutions.find? (fun r => r.key = key) with
      | none =>
        have := List.find?_eq_none.1 hr _ hmem
        simp at this
      | some r =>
        have hfits := List.find?_some hr
        have hkey : r.key = key := of_decide_eq_true hfits
        have ho' := Outcomes.mem_resolutions.1 (List.mem_of_find?_eq_some hr)
        rw [hkey, ho] at ho'
        cases ho'
        rfl
  exact congrArg (fun polls => ({ s with polls } : MemoryStore)) hpolls

@[simp] theorem settle_empty (s : MemoryStore) : s.settle ∅ = s := by
  rw [← write_resolutions]
  exact write_nil s

theorem Keyed.settle {s : MemoryStore} (hs : s.Keyed) (outcomes : Outcomes) :
    (s.settle outcomes).Keyed :=
  hs.mapPolls fun _ p => by split <;> rfl

/-- Stored once polls are decided are those with an outcome, which they have taken, and those
without one, as they were. -/
theorem find?_settle {s : MemoryStore} {outcomes : Outcomes} {key : Hash} {p : Poll} :
    (s.settle outcomes).polls.find? key = some p ↔
      (∃ q o, s.polls.find? key = some q ∧ outcomes.find? key = some o ∧
        p = q.resolve ⟨key, o.status, o.tally⟩) ∨
      (s.polls.find? key = some p ∧ outcomes.find? key = none) := by
  rw [settle, Table.find?_map]
  cases outcomes.find? key with
  | none => simp
  | some o => simp [Option.map_eq_some_iff, eq_comm (b := p)]

/-- The decided polls of a height, in descending order. -/
def decidedAt (height : Height) (s : MemoryStore) : List Poll :=
  sortBy (fun p q => compare q.key p.key)
    ((s.pollsWhere (·.finishHeight = height)).filter fun p => p.status.isResolved)

theorem mem_decidedAt {s : MemoryStore} (hs : s.Keyed) {height : Height} {p : Poll} :
    p ∈ s.decidedAt height ↔
      s.polls.find? p.key = some p ∧ p.finishHeight = height ∧ p.status.isResolved = true := by
  rw [decidedAt, (sortBy_perm _ _).mem_iff, List.mem_filter, hs.mem_pollsWhere, and_assoc]
  simp

theorem nodup_decidedAt {s : MemoryStore} (hs : s.Keyed) (height : Height) :
    ((s.decidedAt height).map Poll.key).Nodup := by
  have hperm := (sortBy_perm (fun p q : Poll => compare q.key p.key)
    ((s.pollsWhere (·.finishHeight = height)).filter fun p => p.status.isResolved)).map Poll.key
  refine hperm.nodup_iff.2 ?_
  exact (hs.nodup_map_pollsWhere _).sublist (List.filter_sublist.map _)

end MemoryStore

/-- **Undoing decisions that have just been made** restores the store, if the polls had no
tally. -/
theorem MemoryStore.undecide_settle {s : MemoryStore} {height : Height} {outcomes : Outcomes}
    (hdecide : outcomes.Decide height s)
    (htally : ∀ key p, s.polls.find? key = some p → p.finishHeight = height → p.tally = 0) :
    (s.settle outcomes).undecide height = s := by
  have hpolls : ((s.settle outcomes).undecide height).polls = s.polls := by
    refine Table.ext_find? fun key => ?_
    rw [undecide, Table.find?_map, settle, Table.find?_map, Option.map_map]
    cases hp : s.polls.find? key with
    | none => rfl
    | some p =>
      refine congrArg some ?_
      show Poll.undecide height _ = p
      cases ho : outcomes.find? key with
      | none =>
        -- A poll without an outcome is not due, and so is not undone.
        rw [Poll.undecide, if_neg]
        rintro ⟨hheight, -⟩
        have hcontains := hdecide.keys.2 ⟨p, hp, hheight⟩
        rw [Table.contains, ho] at hcontains
        cases hcontains
      | some o =>
        obtain ⟨q, hq, hheight⟩ := hdecide.keys.1 (Table.contains_iff.2 ⟨o, ho⟩)
        cases hp.symm.trans hq
        have hpending := hdecide.pending hp hheight
        have hzero := htally key p hp hheight
        rw [Poll.undecide, if_pos ⟨hheight, hdecide.resolved ho⟩]
        simp only [Poll.resolve, Poll.reset]
        rw [← hpending, ← hzero]
  exact congrArg (fun polls => ({ s with polls } : MemoryStore)) hpolls

/-- **Taking back a block that has just been applied** leaves what there was without it. -/
theorem MemoryStore.takeBack_settle {s : MemoryStore} {height : Height} {outcomes : Outcomes}
    (hdecide : outcomes.Decide height s)
    (htally : ∀ key p, s.polls.find? key = some p → p.status = .pending → p.tally = 0) :
    (s.settle outcomes).takeBack height = s.dropBlock height := by
  rw [takeBack, undecide_settle hdecide fun key p hp hheight =>
    htally key p hp (hdecide.pending hp hheight)]

/-! ## What is answered -/

/-- The poll with its outcome, if it has one. -/
def Poll.settled (outcomes : Outcomes) (p : Poll) : Poll :=
  match outcomes.find? p.key with
  | some o => p.resolve ⟨p.key, o.status, o.tally⟩
  | none => p

@[simp] theorem Poll.finishHeight_settled (outcomes : Outcomes) (p : Poll) :
    (p.settled outcomes).finishHeight = p.finishHeight := by
  unfold settled
  split <;> rfl

/-- Once polls are decided, scans find them with their outcomes. -/
theorem MemoryStore.Keyed.pollsWhere_settle {s : MemoryStore} (hs : s.Keyed) (outcomes : Outcomes)
    (height : Height) :
    (s.settle outcomes).pollsWhere (·.finishHeight = height)
      = (s.pollsWhere (·.finishHeight = height)).map (Poll.settled outcomes) := by
  have hvalues : (s.settle outcomes).polls.values = s.polls.values.map (Poll.settled outcomes) := by
    rw [MemoryStore.settle, Table.values, Table.map, Table.values, List.map_map, List.map_map]
    refine List.map_congr_left fun e he => ?_
    have hkey := hs.polls ((s.polls.mem_entries_iff e.1 e.2).1 he)
    show _ = Poll.settled outcomes e.2
    rw [Poll.settled, hkey]
    rfl
  rw [pollsWhere, hvalues, List.filter_map, pollsWhere]
  simp only [Function.comp_def, Poll.finishHeight_settled]

/-- The polls due at a height have outcomes. -/
theorem Outcomes.Decide.exists_of_mem {outcomes : Outcomes} {height : Height} {s : MemoryStore}
    (hs : s.Keyed) (h : outcomes.Decide height s) {p : Poll}
    (hp : p ∈ s.pollsWhere (·.finishHeight = height)) : ∃ o, outcomes.find? p.key = some o := by
  obtain ⟨hfind, hheight⟩ := hs.mem_pollsWhere.1 hp
  exact Table.contains_iff.1 (h.keys.2 ⟨p, hfind, of_decide_eq_true hheight⟩)

/-- **The answer of a resolution** is what the store then says of the polls due at the height. -/
theorem Outcomes.Decide.resolved_eq {outcomes : Outcomes} {height : Height} {s : MemoryStore}
    (hs : s.Keyed) (h : outcomes.Decide height s) :
    outcomes.resolved (s.pollsWhere (·.finishHeight = height)) height
      = ((s.settle outcomes).pollsWhere (·.finishHeight = height)).map
          (ResolvedPoll.ofPoll height) := by
  have hanswer : (s.pollsWhere (·.finishHeight = height)).filterMap (fun p =>
        (outcomes.find? p.key).map fun o =>
          (⟨p.key, p.account, o.status, o.tally, height⟩ : ResolvedPoll))
      = ((s.settle outcomes).pollsWhere (·.finishHeight = height)).map
          (ResolvedPoll.ofPoll height) := by
    rw [hs.pollsWhere_settle, List.map_map]
    refine List.filterMap_eq_map_iff_forall_eq_some.2 fun p hp => ?_
    obtain ⟨o, ho⟩ := h.exists_of_mem hs hp
    simp [Poll.settled, ho, ResolvedPoll.ofPoll, Poll.resolve]
  rw [Outcomes.resolved, hanswer]
  refine sortBy_eq_self (List.pairwise_map.2 ?_)
  have hascending := (hs.settle outcomes).ascending_pollsWhere (·.finishHeight = height)
  refine (List.pairwise_map.1 hascending).imp fun {p q} hlt => ?_
  simp [compareOn, ResolvedPoll.ofPoll, hlt]

/-- Once a height is resolved, its decided polls are all that are due at it. -/
theorem Outcomes.Decide.decidedAt_settle {outcomes : Outcomes} {height : Height} {s : MemoryStore}
    (hs : s.Keyed) (h : outcomes.Decide height s) :
    (s.settle outcomes).decidedAt height
      = ((s.settle outcomes).pollsWhere (·.finishHeight = height)).reverse := by
  have hall : ((s.settle outcomes).pollsWhere (·.finishHeight = height)).filter
        (fun p => p.status.isResolved)
      = (s.settle outcomes).pollsWhere (·.finishHeight = height) := by
    refine List.filter_eq_self.2 fun p hp => ?_
    rw [hs.pollsWhere_settle] at hp
    obtain ⟨q, hq, rfl⟩ := List.mem_map.1 hp
    obtain ⟨o, ho⟩ := h.exists_of_mem hs hq
    rw [Poll.settled, ho]
    exact h.resolved ho
  rw [MemoryStore.decidedAt, hall]
  have hascending := (hs.settle outcomes).ascending_pollsWhere (·.finishHeight = height)
  exact sortBy_eq_reverse ((List.pairwise_map.1 hascending).imp fun hlt =>
    Std.OrientedCmp.gt_iff_lt.2 hlt)

theorem mem_approvedKeys {polls : List Poll} {key : Hash} :
    key ∈ approvedKeys polls ↔ ∃ p ∈ polls, p.key = key ∧ p.status = .approved := by
  rw [approvedKeys, List.mem_map]
  constructor
  · rintro ⟨p, hp, rfl⟩
    obtain ⟨hmem, hstatus⟩ := List.mem_filter.1 hp
    exact ⟨p, hmem, rfl, by simpa using hstatus⟩
  · rintro ⟨p, hmem, rfl, hstatus⟩
    exact ⟨p, List.mem_filter.2 ⟨hmem, by simpa using hstatus⟩, rfl⟩

/-- The approved keys of a height are those of the polls stored as approved at it. -/
theorem MemoryStore.mem_approvedKeys_decidedAt {s : MemoryStore} (hs : s.Keyed) {height : Height}
    {t : Hash} : t ∈ approvedKeys (s.decidedAt height) ↔
      ∃ p, s.polls.find? t = some p ∧ p.finishHeight = height ∧ p.status = .approved := by
  rw [mem_approvedKeys]
  constructor
  · rintro ⟨p, hp, rfl, happroved⟩
    obtain ⟨hfind, hheight, -⟩ := (mem_decidedAt hs).1 hp
    exact ⟨p, hfind, hheight, happroved⟩
  · rintro ⟨p, hfind, hheight, happroved⟩
    have hkey := hs.polls hfind
    refine ⟨p, (mem_decidedAt hs).2 ⟨by rwa [hkey], hheight, ?_⟩, hkey, happroved⟩
    rw [happroved]
    rfl

/-- The approved polls of a height, once it has been resolved, are those that its outcomes
approve. -/
theorem Outcomes.Decide.mem_approvedKeys_settle {s : MemoryStore} (hs : s.Keyed)
    {height : Height} {outcomes : Outcomes} (hdecide : outcomes.Decide height s) (t : Hash) :
    t ∈ approvedKeys ((s.settle outcomes).decidedAt height) ↔ t ∈ outcomes.approved := by
  rw [MemoryStore.mem_approvedKeys_decidedAt (hs.settle outcomes), mem_approved,
    MemoryStore.settle, Table.find?_map]
  constructor
  · rintro ⟨p, hp, hheight, happroved⟩
    obtain ⟨q, hq, rfl⟩ := Option.map_eq_some_iff.1 hp
    cases ho : outcomes.find? t with
    | none =>
      rw [ho] at hheight
      have hcontains := hdecide.keys.2 ⟨q, hq, hheight⟩
      rw [Table.contains, ho] at hcontains
      cases hcontains
    | some o =>
      rw [ho] at happroved
      exact ⟨o, rfl, happroved⟩
  · rintro ⟨o, ho, happroved⟩
    obtain ⟨p, hp, hheight⟩ := hdecide.keys.1 (Table.contains_iff.2 ⟨o, ho⟩)
    refine ⟨p.resolve ⟨t, o.status, o.tally⟩, ?_, hheight, happroved⟩
    rw [hp, Option.map_some, ho]

/-! ## Resolving -/

/-- What the store is like when resolving a height fails with an error. -/
def EngineError.ResolutionCause (s : MemoryStore) (height : Height) (fallible : Prop) :
    EngineError → Prop
  | .consistency (.doubleResolution key h) => h = height ∧
    ∃ p, s.polls.find? key = some p ∧ p.finishHeight = height ∧ p.status ≠ .pending
  | .ledger _ => True
  | e => e.DecisionCause s (s.pollsWhere (·.finishHeight = height)) height fallible

/-- A cause of failure in deciding is one in resolving. -/
theorem EngineError.DecisionCause.resolution {s : MemoryStore} {height : Height}
    {fallible : Prop} {e : EngineError}
    (h : e.DecisionCause s (s.pollsWhere (·.finishHeight = height)) height fallible) :
    e.ResolutionCause s height fallible := by
  cases e with
  | registration e => exact h
  | store e => exact h
  | ledger e => trivial
  | consistency e => cases e <;> first | exact h | exact absurd h id

/-- Whatever makes resolving fail is fatal. -/
theorem EngineError.ResolutionCause.isFatal {s : MemoryStore} {height : Height} {fallible : Prop}
    {e : EngineError} (h : e.ResolutionCause s height fallible) : e.isFatal = true := by
  cases e with
  | registration e => exact h.elim
  | _ => rfl

section

variable [PollStore S] [VoteStore S] [FaithfulStore S] {v : World MemoryStore L}

theorem decideHeight_yields (hs : v.store.Keyed) (height : Height) :
    Yields (S := S) (decideHeight height) v
      (fun r v' => v' = v ∧
        match r with
        | none => v.store.pollsWhere (·.finishHeight = height) = []
        | some (polls, outcomes) =>
          polls = v.store.pollsWhere (·.finishHeight = height) ∧
            outcomes.Decide height v.store)
      (fun e v' => v' = v ∧
        e.ResolutionCause v.store height (FaithfulStore.fallible S)) := by
  unfold decideHeight
  refine .bind (.inStore (yields_pollsFinishingAt (fun hf e => ⟨rfl, hf⟩) ?_))
  have hmem : ∀ {p}, p ∈ v.store.pollsWhere (·.finishHeight = height) ↔
      v.store.polls.find? p.key = some p ∧ p.finishHeight = height := by
    intro p
    rw [hs.mem_pollsWhere, decide_eq_true_iff]
  split
  · rename_i p hp
    obtain ⟨hfind, hheight⟩ := hmem.1 (List.mem_of_find?_eq_some hp)
    have hdecided := List.find?_some hp
    exact .throw ⟨rfl, rfl, p, hfind, hheight, by simpa [Poll.isPending] using hdecided⟩
  · rename_i hpending
    split
    · rename_i hempty
      exact .pure ⟨rfl, List.isEmpty_iff.1 hempty⟩
    · have hunique : ∀ p ∈ v.store.pollsWhere (·.finishHeight = height),
          ∀ q ∈ v.store.pollsWhere (·.finishHeight = height), p.key = q.key → p = q := by
        intro p hp q hq hkey
        have hp' := (hmem.1 hp).1
        rw [hkey, (hmem.1 hq).1] at hp'
        exact (Option.some.inj hp').symm
      refine .bind ((decidePolls_yields hunique height).mono ?_
        fun _ _ he => ⟨he.1, he.2.resolution⟩)
      rintro outcomes _ ⟨rfl, hsound⟩
      refine .pure ⟨rfl, rfl, fun {key p} hp hheight => ?_, fun {key} => ?_,
        fun {key p o} hp ho => ?_⟩
      · have hkey := hs.polls hp
        have := List.find?_eq_none.1 hpending p (hmem.2 ⟨by rwa [hkey], hheight⟩)
        simpa [Poll.isPending] using this
      · rw [hsound.keys]
        constructor
        · rintro ⟨p, hp, rfl⟩
          exact ⟨p, hmem.1 hp⟩
        · rintro ⟨p, hp, hheight⟩
          have hkey := hs.polls hp
          exact ⟨p, hmem.2 ⟨by rwa [hkey], hheight⟩, hkey⟩
      · obtain ⟨q, hq, rfl⟩ := (hsound.keys key).1 (Table.contains_iff.2 ⟨o, ho⟩)
        cases hp.symm.trans (hmem.1 hq).1
        exact hsound.warrants p hq o ho

/-- Outcomes are written to polls that are stored. -/
theorem Outcomes.Decide.stored {outcomes : Outcomes} {height : Height} {s : MemoryStore}
    (h : outcomes.Decide height s) :
    ∀ r ∈ outcomes.resolutions, s.polls.contains r.key = true := by
  intro r hr
  have hcontains := Table.contains_iff.2 ⟨_, mem_resolutions.1 hr⟩
  obtain ⟨p, hp, -⟩ := h.keys.1 hcontains
  exact Table.contains_iff.2 ⟨p, hp⟩

variable [Ledger L]

/-- **Resolving a height** gives exactly the polls due at it an outcome and releases those that are
approved, or leaves all polls alone.  The ledger is left alone too, unless it is the one that
fails. -/
theorem resolveHeight_yields (hs : v.store.Keyed) (height : Height) :
    Yields (S := S) (resolveHeight height) v
      (fun resolved v' => ∃ outcomes : Outcomes, outcomes.Decide height v.store ∧
        resolved = outcomes.resolved (v.store.pollsWhere (·.finishHeight = height)) height ∧
        v'.store = v.store.settle outcomes ∧
        (releaseAll outcomes.approved).start v.ledger = (.ok (), v'.ledger))
      (fun e v' => v'.store = v.store ∧
        e.ResolutionCause v.store height (FaithfulStore.fallible S) ∧
        (FaithfulStore.fallible S ∨ v'.ledger = v.ledger ∨ ∃ keys,
          (releaseAll keys).start v.ledger = (.error e, v'.ledger))) := by
  rw [resolveHeight_eq]
  refine .bind ((decideHeight_yields hs height).mono ?_
    fun _ _ he => ⟨he.1 ▸ rfl, he.2, .inr (.inl (he.1 ▸ rfl))⟩)
  rintro r _ ⟨rfl, hr⟩
  cases r with
  | none =>
    exact .pure ⟨∅, Outcomes.decide_empty hr, by rw [hr]; rfl, by simp, rfl⟩
  | some r =>
    obtain ⟨polls, outcomes⟩ := r
    obtain ⟨rfl, hdecide⟩ := hr
    refine .bind (commit_yields outcomes.nodup_resolutions hdecide.stored ?_
      (fun e l hl => ⟨rfl, trivial, .inr (.inr ⟨_, hl⟩)⟩) fun hf e l => ⟨rfl, hf, .inl hf⟩)
    intro l hl
    exact .pure ⟨outcomes, hdecide, rfl, MemoryStore.write_resolutions _ _, hl⟩

/-! ## Undoing -/

omit [Ledger L] in
theorem decidedAt_yields (height : Height) :
    Yields (S := S) (decidedAt height) v (fun ps v' => v' = v ∧ ps = v.store.decidedAt height)
      (fun e v' => v' = v ∧ ∃ e', e = .store e' ∧ FaithfulStore.fallible S) :=
  .bind (.inStore (yields_pollsFinishingAt (fun hf e => ⟨rfl, e, rfl, hf⟩) (.pure ⟨rfl, rfl⟩)))

omit [PollStore S] [VoteStore S] [FaithfulStore S] [Ledger L] in
/-- Each decided poll is reset once, and it is stored. -/
theorem MemoryStore.nodup_resets {s : MemoryStore} (hs : s.Keyed) (height : Height) :
    (((s.decidedAt height).map Poll.reset).map Resolution.key).Nodup := by
  rw [List.map_map]
  exact nodup_decidedAt hs height

/-- **Undoing a height** sets the polls decided at it back to pending and undoes their releases, or
leaves all polls alone. -/
theorem undoHeight_yields (hs : v.store.Keyed) (height : Height) :
    Yields (S := S) (undoHeight height) v
      (fun reverted v' => reverted = (v.store.decidedAt height).map (ResolvedPoll.ofPoll height) ∧
        v'.store = v.store.undecide height ∧
        (undoAll (approvedKeys (v.store.decidedAt height))).start v.ledger = (.ok (), v'.ledger))
      (fun e v' => v'.store = v.store ∧ (FaithfulStore.fallible S ∨ ∃ e', e = .ledger e' ∧
        (undoAll (approvedKeys (v.store.decidedAt height))).start v.ledger
          = (.error e, v'.ledger))) := by
  rw [undoHeight_eq]
  refine .bind ((decidedAt_yields height).mono ?_ ?_)
  · rintro ps v' ⟨rfl, rfl⟩
    have hreset : v'.store.write ((v'.store.decidedAt height).map Poll.reset)
        = v'.store.undecide height :=
      MemoryStore.write_reset hs fun p => MemoryStore.mem_decidedAt hs
    split
    · rename_i hempty
      have hnil := List.isEmpty_iff.1 hempty
      rw [hnil] at hreset ⊢
      exact .pure ⟨rfl, (MemoryStore.write_nil _).symm.trans hreset, rfl⟩
    · refine .bind (commit_yields (MemoryStore.nodup_resets hs height) ?_ ?_
        (fun e l hl => ⟨rfl, .inr ⟨e, rfl, hl⟩⟩) fun hf e l => ⟨rfl, .inl hf⟩)
      · intro r hr
        obtain ⟨p, hp, rfl⟩ := List.mem_map.1 hr
        exact Table.contains_iff.2 ⟨p, ((MemoryStore.mem_decidedAt hs).1 hp).1⟩
      · intro l hl
        exact .pure ⟨rfl, hreset, hl⟩
  · rintro e _ ⟨rfl, _, rfl, hf⟩
    exact ⟨rfl, .inl hf⟩

end

end Finality
