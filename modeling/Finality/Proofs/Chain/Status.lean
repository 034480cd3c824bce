import Finality.Proofs.Chain.Effect

/-!
# Status follows height

A poll is undecided until the chain reaches its finish height and decided from there on, however
often blocks are taken back in between and whatever the ledger does.  That is why a follower over a
store that does not fail never meets a poll whose status is wrong for its height.

* `Poll.OnTime`, `MemoryStore.OnTime` — the invariant.  A poll created at height zero, which only a
  chain beyond the greatest height could contain, is left out of it where it speaks of the status.
* `MemoryStore.OnTime.effect`, `MemoryStore.OnTime.step` — every effect of a call keeps it, and so
  does every step.
* `Session.Timely` — what follows for a session as long as its chain ends below the greatest height.
* `status_follows_height` — the result, for chains below the greatest height.
-/

namespace Finality

/-! ## Heights -/

namespace Height

theorem toNat_add_one {h : Height} (hne : h + 1 ≠ 0) : (h + 1).toNat = h.toNat + 1 := by
  have hlt := h.toNat_lt
  have hne' : (h + 1).toNat ≠ 0 := fun h0 => hne (UInt64.toNat_inj.1 h0)
  rw [UInt64.toNat_add] at hne' ⊢
  simp at hne' ⊢
  omega

theorem toNat_sub_one {h : Height} (hne : h ≠ 0) : (h - 1).toNat + 1 = h.toNat := by
  have hlt := h.toNat_lt
  have hne' : h.toNat ≠ 0 := fun h0 => hne (UInt64.toNat_inj.1 h0)
  rw [UInt64.toNat_sub]
  simp
  omega

theorem add_one_ne_zero {h : Height} (hlt : h.toNat + 1 < UInt64.size) : h + 1 ≠ 0 := by
  intro h0
  have hnat := congrArg UInt64.toNat h0
  rw [UInt64.toNat_add] at hnat
  simp [UInt64.size] at hnat hlt
  omega

theorem toNat_add_one_le (h : Height) : (h + 1).toNat ≤ h.toNat + 1 := by
  rw [UInt64.toNat_add]
  exact Nat.mod_le _ _

/-- Up to a height, but not there, is up to the height before. -/
theorem toNat_le_sub_one {h a : Height} (hne : h ≠ 0) (hle : a.toNat ≤ h.toNat) (ha : a ≠ h) :
    a.toNat ≤ (h - 1).toNat := by
  have hnat := toNat_sub_one hne
  have ha' : a.toNat ≠ h.toNat := fun heq => ha (UInt64.toNat_inj.1 heq)
  omega

/-- Nothing is above the greatest height. -/
theorem not_lt_of_add_one_eq_zero {h a : Height} (h0 : h + 1 = 0) : ¬ h < a := by
  have ha := a.toNat_lt
  have hh := h.toNat_lt
  have hnat := congrArg UInt64.toNat h0
  rw [UInt64.toNat_add] at hnat
  simp at hnat
  rw [UInt64.lt_iff_toNat_lt]
  omega

/-- Below the next height is not above this one. -/
theorem lt_add_one_iff {h a : Height} (hne : h + 1 ≠ 0) : a < h + 1 ↔ ¬ h < a := by
  have hnat := toNat_add_one hne
  rw [UInt64.lt_iff_toNat_lt, UInt64.lt_iff_toNat_lt, hnat]
  omega

/-- Above the next height is above this one, and not the next one. -/
theorem add_one_lt_iff {h a : Height} (hne : h + 1 ≠ 0) : h + 1 < a ↔ h < a ∧ a ≠ h + 1 := by
  have hnat := toNat_add_one hne
  rw [UInt64.lt_iff_toNat_lt, UInt64.lt_iff_toNat_lt, hnat, ne_eq, ← UInt64.toNat_inj, hnat]
  omega

/-- Above the height before is above this one, or this one. -/
theorem sub_one_lt_iff {h a : Height} (hne : h ≠ 0) : h - 1 < a ↔ h < a ∨ a = h := by
  have hnat := toNat_sub_one hne
  rw [UInt64.lt_iff_toNat_lt, UInt64.lt_iff_toNat_lt, ← UInt64.toNat_inj]
  omega

end Height

variable {S L : Type}

/-! ## The invariant -/

/-- What a stored poll is like when the chain is at a height. -/
structure Poll.OnTime (height : Height) (p : Poll) : Prop where
  /-- It finishes after it was created. -/
  finish : p.createdHeight < p.finishHeight
  /-- It is undecided exactly as long as its finish height is ahead. -/
  status : p.createdHeight ≠ 0 → (p.status = .pending ↔ height < p.finishHeight)
  /-- As long as it is undecided, nothing has been counted. -/
  tally : p.status = .pending → p.tally = 0
  /-- Unless it is decided by links, it has a quorum. -/
  quorum : p.isLinked = false → p.quorum ≠ none

/-- The polls of a store are all on time. -/
structure MemoryStore.OnTime (height : Height) (s : MemoryStore) : Prop where
  /-- Everything stands under its own key. -/
  keyed : s.Keyed
  /-- Every poll is on time. -/
  polls : ∀ {key p}, s.polls.find? key = some p → p.OnTime height

namespace Poll.OnTime

/-- A poll that has just been registered. -/
theorem registered {params : Params} {height : Height} {s : MemoryStore} {r : PollRequest}
    (h : r.Passes params (height + 1) s) : (r.toPoll (height + 1)).OnTime height where
  finish := PollRequest.lt_of_checkFinishHeight h.finishHeight
  status hcreated := by
    have hfinish := PollRequest.lt_of_checkFinishHeight h.finishHeight
    exact iff_of_true rfl ((Height.add_one_lt_iff hcreated).1 hfinish).1
  tally _ := rfl
  quorum hlinked := PollRequest.quorum_of_checkModel h.model (of_decide_eq_false hlinked)

/-- A poll after the polls due at the next height were decided. -/
theorem settle {height : Height} {s : MemoryStore} {outcomes : Outcomes}
    (hdecide : outcomes.Decide (height + 1) s) (hne : height + 1 ≠ 0) {key : Hash} {p : Poll}
    (hp : s.polls.find? key = some p) (h : p.OnTime height) :
    (match outcomes.find? key with
      | some o => p.resolve ⟨key, o.status, o.tally⟩
      | none => p).OnTime (height + 1) := by
  cases ho : outcomes.find? key with
  | some o =>
    have hresolved := hdecide.resolved ho
    obtain ⟨q, hq, hfinish⟩ := hdecide.keys.1 (Table.contains_iff.2 ⟨o, ho⟩)
    cases hp.symm.trans hq
    have hdecided : o.status ≠ .pending := by
      intro hpending
      rw [hpending] at hresolved
      cases hresolved
    refine ⟨h.finish, fun _ => iff_of_false hdecided ?_, fun hpending => ?_, h.quorum⟩
    · show ¬ height + 1 < p.finishHeight
      rw [hfinish]
      exact UInt64.lt_irrefl _
    · exact absurd hpending hdecided
  | none =>
    have hother : p.finishHeight ≠ height + 1 := by
      intro hfinish
      have hcontains := hdecide.keys.2 ⟨p, hp, hfinish⟩
      rw [Table.contains, ho] at hcontains
      cases hcontains
    refine ⟨h.finish, fun hcreated => ?_, h.tally, h.quorum⟩
    rw [h.status hcreated, Height.add_one_lt_iff hne]
    exact ⟨fun hlt => ⟨hlt, hother⟩, fun hlt => hlt.1⟩

/-- A poll after the decisions of the last height were undone. -/
theorem undecide {height : Height} (hne : height ≠ 0) {p : Poll} (h : p.OnTime height) :
    (p.undecide height).OnTime (height - 1) := by
  unfold Poll.undecide
  split
  · rename_i hdecided
    refine ⟨h.finish, fun _ => iff_of_true rfl ?_, fun _ => rfl, h.quorum⟩
    exact (Height.sub_one_lt_iff hne).2 (.inr hdecided.1)
  · rename_i hnot
    refine ⟨h.finish, fun hcreated => ?_, h.tally, h.quorum⟩
    rw [h.status hcreated, Height.sub_one_lt_iff hne]
    refine ⟨.inl, fun hlt => hlt.resolve_right fun hfinish => ?_⟩
    -- A poll due at the last height is decided, and so would have been undone.
    have hdecided : p.status ≠ .pending := by
      rw [ne_eq, h.status hcreated, hfinish]
      exact UInt64.lt_irrefl _
    refine hnot ⟨hfinish, ?_⟩
    cases hstatus : p.status with
    | pending => exact absurd hstatus hdecided
    | approved => rfl
    | rejected => rfl

end Poll.OnTime

namespace MemoryStore

/-- Taking back the last block leaves nothing above the one before. -/
theorem UpTo.takeBack {height : Height} (hne : height ≠ 0) {s : MemoryStore}
    (h : s.UpTo height.toNat) : (s.takeBack height).UpTo (height - 1).toNat where
  polls := by
    intro key p hp
    obtain ⟨q, hq, hother, rfl⟩ := find?_polls_takeBack.1 hp
    rw [Poll.createdHeight_undecide]
    exact Height.toNat_le_sub_one hne (h.polls hq) hother
  votes := by
    intro id x hx
    obtain ⟨hx', hother⟩ := find?_votes_takeBack.1 hx
    exact Height.toNat_le_sub_one hne (h.votes hx') hother

theorem onTime_empty (height : Height) : empty.OnTime height where
  keyed := keyed_empty
  polls h := by cases h

/-- **Every effect of a call** keeps polls on time, with the height that the follower is left at. -/
theorem OnTime.effect [Ledger L] {params : Params} {f : Follower (World S L)} {c : Call}
    {r : Except EngineError Reply} {v v' : World MemoryStore L} (hrefusal : c.refusal f = none)
    (hs : v.store.OnTime f.height) (h : c.Effect params f.height v r v') :
    v'.store.OnTime (c.heightLeft f.height r) := by
  cases h with
  | @registered r l hpasses hledger =>
    refine ⟨hs.keyed.insertPoll (r.toPoll (f.height + 1)), fun {key p} hp => ?_⟩
    rw [Table.find?_insert] at hp
    split at hp
    · cases hp
      exact .registered hpasses
    · exact hs.polls hp
  | accepted hheight hadmitted hledger => exact ⟨hs.keyed.insertVote _, hs.polls⟩
  | rejected hledger => exact hs
  | applied hdecide hledger =>
    obtain ⟨rfl, hne⟩ := Call.eq_of_refusal_applyBlock hrefusal
    refine ⟨hs.keyed.settle _, fun {key p} hp => ?_⟩
    rw [settle, Table.find?_map, Option.map_eq_some_iff] at hp
    obtain ⟨q, hq, rfl⟩ := hp
    exact (hs.polls hq).settle hdecide hne hq
  | popped hledger =>
    obtain ⟨rfl, hne⟩ := Call.eq_of_refusal_popBlock hrefusal
    refine ⟨(hs.keyed.undecide _).dropBlock _, fun {key p} hp => ?_⟩
    obtain ⟨q, hq, -, rfl⟩ := find?_polls_takeBack.1 hp
    exact (hs.polls hq).undecide hne
  | failed hcause hledger => exact hs

end MemoryStore

/-! ## Runs -/

section

variable [PollStore S] [VoteStore S] [FaithfulStore S] [Ledger L]

/-- **Polls stay on time** in every run over a store that does not fail. -/
theorem MemoryStore.OnTime.step (hsafe : ¬ FaithfulStore.fallible S) {s : Session (World S L)}
    (hs : s.follower.world.view.store.OnTime s.follower.height) (st : Step L) :
    (s.step st).follower.world.view.store.OnTime (s.step st).follower.height := by
  refine Session.step_keeps (P := fun _ height store => store.OnTime height) hsafe hs.keyed hs st
    (fun c e _ _ => hs) ?_
  rintro c reply v' rfl hrefusal h
  exact hs.effect hrefusal h

/-- No poll was created at height zero. -/
def MemoryStore.Dated (s : MemoryStore) : Prop :=
  ∀ key p, s.polls.find? key = some p → p.createdHeight ≠ 0

/-- Polls that are dated stay so, unless one is registered beyond the greatest height. -/
theorem MemoryStore.Dated.effect {params : Params} {height : Height} {c : Call}
    {r : Except EngineError Reply} {v v' : World MemoryStore L} (hnext : height + 1 ≠ 0)
    (hs : v.store.Dated) (h : c.Effect params height v r v') : v'.store.Dated := by
  intro key p hp
  rcases h.find?_polls hp with ⟨q, hq, hterms⟩ | ⟨req, -, -, rfl⟩
  · rw [Poll.createdHeight_of_terms hterms]
    exact hs key q hq
  · exact hnext

end

/-! ## What never goes wrong -/

/-- Whether the error says that the status of a poll is wrong for its height, or the poll itself is
wrong. -/
def ConsistencyError.IsOfStatus : ConsistencyError → Bool
  | .doubleResolution .. | .stalePending .. | .malformedPoll _ | .rollbackOfResolved .. => true
  | .tallyOverflow _ | .missingLinkedPoll .. => false

/-- If polls are on time, no call fails because of their status. -/
theorem MemoryStore.OnTime.isOfStatus_eq_false {σ : Type} {f : Follower σ} {s : MemoryStore}
    (hs : s.OnTime f.height) (hdated : s.Dated) {c : Call} (hrefusal : c.refusal f = none)
    {e : ConsistencyError} (h : c.FailsWith s (.consistency e)) : e.IsOfStatus = false := by
  have hpending : ∀ {key p}, s.polls.find? key = some p →
      (p.status = .pending ↔ f.height < p.finishHeight) := fun hp =>
    (hs.polls hp).status (hdated _ _ hp)
  cases c with
  | register r => exact h.elim
  | castVote poll voter => exact h.elim
  | applyBlock height =>
    obtain ⟨rfl, hne⟩ := Call.eq_of_refusal_applyBlock hrefusal
    cases e with
    | tallyOverflow poll => rfl
    | missingLinkedPoll poll link => rfl
    | doubleResolution key height =>
      -- A poll due at the next height is still undecided.
      obtain ⟨-, p, hp, hfinish, hdecided⟩ := h
      refine absurd ((hpending hp).2 ?_) hdecided
      rw [hfinish]
      exact (Height.lt_add_one_iff hne).2 (UInt64.lt_irrefl _)
    | stalePending link finish height =>
      -- A poll due below the next height is decided.
      obtain ⟨-, hbelow, q, hq, hstatus, hfinish⟩ := h
      have habove := (hpending hq).1 hstatus
      rw [hfinish] at habove
      exact absurd habove ((Height.lt_add_one_iff hne).1 hbelow)
    | malformedPoll key =>
      obtain ⟨p, hp, -, hlinked, hquorum⟩ := h
      have hfind := (hs.keyed.mem_pollsWhere.1 hp).1
      exact absurd hquorum ((hs.polls hfind).quorum hlinked)
    | rollbackOfResolved key height => exact h.elim
  | popBlock height =>
    obtain ⟨rfl, -⟩ := Call.eq_of_refusal_popBlock hrefusal
    rcases h with h | ⟨e', he'⟩
    · cases e with
      | rollbackOfResolved key height =>
        -- A poll created at the last height finishes above it.
        obtain ⟨-, p, hp, hcreated, hdecided⟩ := h
        refine absurd ((hpending hp).2 ?_) hdecided
        rw [← hcreated]
        exact (hs.polls hp).finish
      | _ => exact h.elim
    · cases he'

section

variable [PollStore S] [VoteStore S] [FaithfulStore S] [Ledger L]

/-- The chain of a session ends below the greatest height. -/
def Session.BelowTop (s : Session (World S L)) (_ : Step L) : Prop :=
  s.follower.height.toNat + 1 < UInt64.size

instance Session.decidableBelowTop (s : Session (World S L)) (st : Step L) :
    Decidable (s.BelowTop st) :=
  inferInstanceAs (Decidable (_ < _))

/-- What the log and the store of a session are like as long as its chain ends below the greatest
height. -/
structure Session.Timely (s : Session (World S L)) : Prop where
  /-- Polls are on time. -/
  onTime : s.follower.world.view.store.OnTime s.follower.height
  /-- No poll was created at height zero. -/
  dated : s.follower.world.view.store.Dated
  /-- No answer has said that the status of a poll is wrong. -/
  log : ∀ x ∈ s.log, ∀ {e}, x.answer = .error (.engine (.consistency e)) → e.IsOfStatus = false

theorem Session.Timely.step (hsafe : ¬ FaithfulStore.fallible S) {s : Session (World S L)}
    (hs : s.Timely) {st : Step L} (htop : s.BelowTop st) : (s.step st).Timely := by
  suffices h : (s.step st).follower.world.view.store.Dated ∧ ∀ x ∈ (s.step st).log, ∀ {e},
      x.answer = .error (.engine (.consistency e)) → e.IsOfStatus = false from
    ⟨hs.onTime.step hsafe st, h.1, h.2⟩
  refine Session.step_keeps (P := fun log _ store => store.Dated ∧ ∀ x ∈ log, ∀ {e},
      x.answer = .error (.engine (.consistency e)) → e.IsOfStatus = false)
    hsafe hs.onTime.keyed ⟨hs.dated, hs.log⟩ st ?_ ?_
  · intro c e _ hcause
    refine ⟨hs.dated, List.forall_mem_cons.2 ⟨fun {e'} he => ?_, hs.log⟩⟩
    cases he
    obtain ⟨hrefusal, hfails⟩ := hcause _ rfl
    exact hs.onTime.isOfStatus_eq_false hs.dated hrefusal hfails
  · rintro c reply v' rfl hrefusal h
    have hnext := Height.add_one_ne_zero htop
    exact ⟨hs.dated.effect hnext h, List.forall_mem_cons.2 ⟨(nomatch ·), hs.log⟩⟩

end

/-- **Sessions stay timely**, from an empty store on, as long as the chain ends below the greatest
height. -/
theorem Session.Timely.run [Ledger L] {f : Follower (World MemoryStore L)}
    (hempty : f.world.store = .empty) {steps : List (Step L)}
    (hsteps : Session.Permits Session.BelowTop (.start f) steps) :
    ((Session.start f).run steps).Timely := by
  have hview : (Session.start f).follower.world.view.store = .empty := hempty
  have hstart : (Session.start f).Timely := by
    refine ⟨?_, fun key p hp => ?_, fun x hx => by cases hx⟩
    · rw [hview]
      exact MemoryStore.onTime_empty _
    · rw [hview] at hp
      cases hp
  exact Session.run_induction (fun s st hs hst => hs.step (fun h => h) hst) hstart hsteps

/-- **Status follows height.**  In every run that starts from an empty store, with any calls in any
order and a ledger that may answer, fail and change as it likes, below the greatest height: every
stored poll finishes after it was created, is undecided exactly as long as its finish height is
ahead of the chain, and has no tally as long as it is undecided.  No call of the run answers that
the status of a poll is wrong for its height. -/
theorem status_follows_height [Ledger L] (f : Follower (World MemoryStore L))
    (hempty : f.world.store = .empty) (steps : List (Step L))
    (hsteps : Session.Permits Session.BelowTop (.start f) steps) :
    let s := (Session.start f).run steps
    (∀ p ∈ s.follower.world.store.polls.values, p.createdHeight < p.finishHeight ∧
      (p.status = .pending ↔ s.follower.height < p.finishHeight) ∧
      (p.status = .pending → p.tally = 0)) ∧
    ∀ x ∈ s.log, ∀ e, x.answer = .error (.engine (.consistency e)) → e.IsOfStatus = false := by
  intro s
  have htimely : s.Timely := .run hempty hsteps
  refine ⟨fun p hp => ?_, fun x hx e he => htimely.log x hx he⟩
  obtain ⟨key, hkey⟩ := Table.mem_values_iff.1 hp
  have hp' := htimely.onTime.polls hkey
  exact ⟨hp'.finish, hp'.status (htimely.dated key p hkey), hp'.tally⟩

/-- A block is taken back, and applying it once more fails at the ledger and halts the follower. -/
theorem status_follows_height_halted :
    let f : Follower (World MemoryStore SimulatedLedger) :=
      .start ⟨.empty, .releasing .zero⟩ .standard 0
    let steps : List (Step SimulatedLedger) := [.call (.register (.single .zero 2)),
      .call (.castVote .zero ⟨7⟩), .call (.applyBlock 1), .call (.applyBlock 2),
      .call (.popBlock 2), .ledger (SimulatedLedger.failRelease .zero), .call (.applyBlock 2)]
    let s := (Session.start f).run steps
    f.world.store = .empty ∧ Session.Permits Session.BelowTop (.start f) steps ∧
    s.follower.halt.isSome = true ∧
    (∀ p ∈ s.follower.world.store.polls.values, p.createdHeight < p.finishHeight ∧
      (p.status = .pending ↔ s.follower.height < p.finishHeight) ∧
      (p.status = .pending → p.tally = 0)) ∧
    ∀ x ∈ s.log, ∀ e, x.answer = .error (.engine (.consistency e)) → e.IsOfStatus = false := by
  exact ⟨rfl, by decide +kernel, by decide +kernel,
    status_follows_height _ rfl _ (by decide +kernel)⟩

end Finality
