import Finality.Proofs.Engine.Passes

/-!
# What deciding does

`decidePolls` only reads.  It finds the right outcome for exactly the polls it is given, or it fails
for a reason that the store shows (`decidePolls_yields`).

* `EngineError.DecisionCause` — what a store is like when deciding fails with an error.
* `decideAllByVotes_yields` — polls with votes of their own get the outcomes that these call for.
* `Progress.Reached`, `decideByVotesAndLinks_reaches` — the states that passes come to once the
  votes are counted, and what keeps them from going on (`MemoryStore.DecisionFault`).
* `decideByVotesAndLinks_yields` — what is undecided in the end waits for another undecided poll, so
  that it depends on itself through a circle of links.
* `decidePolls_reaches` — deciding rejects what is left over in such a state.
-/

namespace Finality

variable {S L : Type} [PollStore S] [VoteStore S] [FaithfulStore S] {v : World MemoryStore L}

/-- What the store is like when deciding these polls at a height fails with an error. -/
def EngineError.DecisionCause (s : MemoryStore) (polls : List Poll) (height : Height)
    (fallible : Prop) : EngineError → Prop
  | .consistency (.tallyOverflow key) => ∃ p ∈ polls, p.key = key ∧ p.model.isWeighted = true ∧
    sumWeights? ((s.votesOn key).map Vote.weight) = none
  | .consistency (.malformedPoll key) =>
    ∃ p ∈ polls, p.key = key ∧ p.isLinked = false ∧ p.quorum = none
  | .consistency (.missingLinkedPoll key link) =>
    ∃ p ∈ polls, p.key = key ∧ link ∈ p.links ∧ s.polls.find? link = none
  | .consistency (.stalePending link finish current) => current = height ∧ finish < height ∧
    ∃ q, s.polls.find? link = some q ∧ q.status = .pending ∧ q.finishHeight = finish
  | .store _ => fallible
  | _ => False

/-- How deciding these polls at a height fails: nothing has changed, and the store shows why. -/
abbrev DecisionFails (S : Type) [PollStore S] [VoteStore S] [FaithfulStore S]
    (polls : List Poll) (height : Height) (v : World MemoryStore L) (e : EngineError)
    (v' : World MemoryStore L) : Prop :=
  v' = v ∧ e.DecisionCause v.store polls height (FaithfulStore.fallible S)

/-! ## Polls with votes of their own -/

/-- What counting the votes on these polls comes upon: weights that are too great to sum, or a poll
with votes of its own and without a quorum. -/
inductive MemoryStore.VotesFault (s : MemoryStore) (polls : List Poll) : ConsistencyError → Prop
    where
  /-- The weights are too great. -/
  | overflow {p : Poll} (hp : p ∈ polls) (hweighted : p.model.isWeighted = true)
      (hsum : sumWeights? ((s.votesOn p.key).map Vote.weight) = none) :
      VotesFault s polls (.tallyOverflow p.key)
  /-- The quorum is missing. -/
  | malformed {p : Poll} (hp : p ∈ polls) (hlinked : p.isLinked = false)
      (hquorum : p.quorum = none) : VotesFault s polls (.malformedPoll p.key)

section

variable {polls : List Poll} {height : Height}

/-- What a tally makes of a poll. -/
def judgeTally {σ : Type} (p : Poll) (tally : Amount) : Action σ EngineError Outcome :=
  match p.quorum with
  | none => throw (.consistency (.malformedPoll p.key))
  | some quorum => return { status := if quorum ≤ tally then .approved else .rejected, tally }

theorem judgeTally_yields {p : Poll} (hp : p ∈ polls) (hlinked : p.isLinked = false)
    {tally : Amount} (htally : v.store.Gathers p tally) :
    Yields (S := S) (judgeTally p tally) v
      (fun o v' => v' = v ∧ v.store.Gathers p o.tally ∧ p.Quorate o.status o.tally)
      (ReadFails S (v.store.VotesFault polls) v) := by
  unfold judgeTally
  cases hquorum : p.quorum with
  | none => exact .throw ⟨rfl, .fault (.malformed hp hlinked hquorum)⟩
  | some quorum => exact .pure ⟨rfl, htally, quorum, hquorum, rfl⟩

theorem sumVotes_yields {p : Poll} (hp : p ∈ polls) (hweighted : p.model.isWeighted = true) :
    Yields (S := S) (sumVotes p.key (v.store.votesOn p.key)) v
      (fun tally v' => v' = v ∧ v.store.Gathers p tally)
      (ReadFails S (v.store.VotesFault polls) v) := by
  unfold sumVotes
  cases hweights : sumWeights? ((v.store.votesOn p.key).map Vote.weight) with
  | some sum =>
    obtain ⟨hfits, hsum⟩ := sumWeights?_eq_some_iff.1 hweights
    have hgathered : v.store.gathered p
        = totalWeight ((v.store.votesOn p.key).map Vote.weight) := by
      simp [MemoryStore.gathered, hweighted]
    exact .pure ⟨rfl, by rw [hgathered, hsum], fun _ => by rwa [hgathered]⟩
  | none => exact .throw ⟨rfl, .fault (.overflow hp hweighted hweights)⟩

theorem decideByVotes_yields {p : Poll} (hp : p ∈ polls) (hlinked : p.isLinked = false) :
    Yields (S := S) (decideByVotes p) v
      (fun o v' => v' = v ∧ v.store.Gathers p o.tally ∧ p.Quorate o.status o.tally)
      (ReadFails S (v.store.VotesFault polls) v) := by
  unfold decideByVotes
  refine .bind (.inStore (yields_votesOn (fun hf e => ⟨rfl, .store e hf⟩) ?_))
  have hsum : p.model.isWeighted = true → Yields (S := S) (do
      let tally ← sumVotes p.key (v.store.votesOn p.key)
      judgeTally p tally) v
      (fun o v' => v' = v ∧ v.store.Gathers p o.tally ∧ p.Quorate o.status o.tally)
      (ReadFails S (v.store.VotesFault polls) v) := by
    intro hweighted
    refine .bind ((sumVotes_yields hp hweighted).mono ?_ fun _ _ he => he)
    rintro tally _ ⟨rfl, htally⟩
    exact judgeTally_yields hp hlinked htally
  cases hmodel : p.model with
  | none => exact .bind (.pure (judgeTally_yields hp hlinked (.of_length (by rw [hmodel]; rfl))))
  | account => exact .bind (.pure (judgeTally_yields hp hlinked (.of_length (by rw [hmodel]; rfl))))
  | assetWeighted => exact hsum (by rw [hmodel]; rfl)
  | currencyWeighted => exact hsum (by rw [hmodel]; rfl)
  | transactionApproval =>
    rw [Poll.isLinked, hmodel] at hlinked
    cases hlinked

/-- Exactly the polls of the list get an outcome, the one that their votes call for. -/
theorem decideAllByVotes_yields (own : List Poll)
    (hown : ∀ p ∈ own, p ∈ polls ∧ p.isLinked = false)
    (hunique : ∀ p ∈ own, ∀ q ∈ own, p.key = q.key → p = q) :
    Yields (S := S) (decideAllByVotes own) v
      (fun o v' => v' = v ∧ (∀ key, o.contains key = true ↔ ∃ p ∈ own, p.key = key) ∧
        ∀ p ∈ own, ∀ x, o.find? p.key = some x →
          v.store.Gathers p x.tally ∧ p.Quorate x.status x.tally)
      (ReadFails S (v.store.VotesFault polls) v) := by
  -- The keys with an outcome and the polls ahead together are the list.
  refine (Yields.foldlM (I := fun (o : Outcomes) ahead v' => v' = v ∧ (∀ p ∈ ahead, p ∈ own) ∧
      (∀ key, (o.contains key = true ∨ ∃ p ∈ ahead, p.key = key) ↔ ∃ p ∈ own, p.key = key) ∧
      ∀ p ∈ own, ∀ x, o.find? p.key = some x →
        v.store.Gathers p x.tally ∧ p.Quorate x.status x.tally) ?_
    ⟨rfl, fun p hp => hp, fun key => ?_, fun p hp x hx => ?_⟩).mono ?_ fun _ _ he => he
  · rintro o p ahead _ ⟨rfl, hsub, hcover, hright⟩
    have hmem := hsub p (List.mem_cons_self ..)
    obtain ⟨hp, hlinked⟩ := hown p hmem
    refine .bind ((decideByVotes_yields hp hlinked).mono ?_ fun _ _ he => he)
    rintro x _ ⟨rfl, hx⟩
    refine .pure ⟨rfl, fun q hq => hsub q (List.mem_cons_of_mem _ hq), fun key => ?_, ?_⟩
    · rw [← hcover key, Table.contains_insert]
      simp only [List.mem_cons, exists_eq_or_imp, eq_comm (a := key)]
      exact ⟨fun h => by rcases h with (h | h) | h <;> simp [h],
        fun h => by rcases h with h | h | h <;> simp [h]⟩
    · intro q hq y hy
      rw [Table.find?_insert] at hy
      split at hy
      · rename_i hkey
        cases hy
        rw [hunique q hq p hmem hkey]
        exact hx
      · exact hright q hq y hy
  · simp [Table.contains]
  · cases hx
  · rintro o v' ⟨hv, -, hcover, hright⟩
    exact ⟨hv, fun key => by simpa using hcover key, hright⟩

/-! ## What is left over -/

theorem rejectUndecided_yields (s : Progress) :
    Yields (S := S) (rejectUndecided s) v
      (fun o v' => v' = v ∧
        (∀ key, s.undecided.contains key = true →
          o.find? key = some ⟨.rejected, UInt64.ofNat (v.store.votesOn key).length⟩) ∧
        ∀ key, s.undecided.contains key = false → o.find? key = s.outcomes.find? key)
      (ReadFails S (fun _ => False) v) := by
  refine (Yields.foldlM (I := fun (o : Outcomes) ahead v' => v' = v ∧
      (∀ key ∈ ahead, s.undecided.contains key = true) ∧
      (∀ key, s.undecided.contains key = true → key ∈ ahead ∨
        o.find? key = some ⟨.rejected, UInt64.ofNat (v.store.votesOn key).length⟩) ∧
      ∀ key, s.undecided.contains key = false → o.find? key = s.outcomes.find? key) ?_
    ⟨rfl, fun key hkey => Table.mem_keys_iff.1 hkey,
      fun key hkey => .inl (Table.mem_keys_iff.2 hkey), fun key _ => rfl⟩).mono ?_
    fun _ _ he => he
  · rintro o key ahead _ ⟨rfl, hahead, hleft, hsame⟩
    refine .bind (.inStore (countVotes_yields ?_ fun hf e => ⟨rfl, .store e hf⟩))
    refine .pure ⟨rfl, fun key' hkey' => hahead key' (List.mem_cons_of_mem _ hkey'),
      fun key' hkey' => ?_, fun key' hkey' => ?_⟩
    · rw [Table.find?_insert]
      by_cases heq : key' = key
      · rw [if_pos heq, heq]
        exact .inr rfl
      · rw [if_neg heq]
        refine (hleft key' hkey').imp_left fun hmem => ?_
        exact (List.mem_cons.1 hmem).resolve_left heq
    · rw [Table.find?_insert, if_neg]
      · exact hsame key' hkey'
      · rintro rfl
        rw [hahead key' (List.mem_cons_self ..)] at hkey'
        cases hkey'
  · rintro o v' ⟨hv, -, hleft, hsame⟩
    exact ⟨hv, fun key hkey => (hleft key hkey).resolve_left List.not_mem_nil, hsame⟩

end

/-! ## All polls of a height -/

theorem contains_foldl_insert (polls : List Poll) (t : Table Hash Unit) (key : Hash) :
    (polls.foldl (fun t p => t.insert p.key ()) t).contains key = true
      ↔ (∃ p ∈ polls, p.key = key) ∨ t.contains key = true := by
  induction polls generalizing t with
  | nil => simp
  | cons p polls ih =>
    rw [List.foldl_cons, ih, Table.contains_insert]
    simp only [List.mem_cons, exists_eq_or_imp, eq_comm (a := key)]
    exact ⟨fun h => by rcases h with h | h | h <;> simp [h],
      fun h => by rcases h with (h | h) | h <;> simp [h]⟩

theorem size_foldl_insert_le (polls : List Poll) (t : Table Hash Unit) :
    (polls.foldl (fun t p => t.insert p.key ()) t).size ≤ t.size + polls.length := by
  induction polls generalizing t with
  | nil => exact Nat.le_refl _
  | cons p polls ih =>
    have hstep := t.size_insert_le p.key ()
    have hrest := ih (t.insert p.key ())
    rw [List.foldl_cons, List.length_cons]
    omega

/-- Where the passes over the polls decided by links begin: these have no outcome, and the others
have theirs. -/
def Progress.opening (polls : List Poll) (outcomes : Outcomes) : Progress :=
  { outcomes, undecided := (polls.filter Poll.isLinked).foldl (fun t p => t.insert p.key ()) ∅ }

/-- Everything that is done to decide these polls before what is left over is rejected: the votes,
then the passes over the polls decided by links. -/
def decideByVotesAndLinks {σ : Type} [PollStore σ] [VoteStore σ] (polls : List Poll)
    (height : Height) : Action σ EngineError Progress := do
  let linked := polls.filter Poll.isLinked
  let outcomes ← decideAllByVotes (polls.filter fun p => !p.isLinked)
  settleLinked height linked (linked.length + 1) (.opening polls outcomes)

/-- Deciding is the votes, then passes over the links, then the rest. -/
theorem decidePolls_eq {σ : Type} [PollStore σ] [VoteStore σ] (polls : List Poll)
    (height : Height) :
    (decidePolls polls height : Action σ EngineError Outcomes)
      = decideByVotesAndLinks polls height >>= rejectUndecided := by
  rw [decideByVotesAndLinks, bind_assoc]
  rfl

/-- As many passes are allowed as can be needed. -/
theorem Progress.size_opening_lt (polls : List Poll) (outcomes : Outcomes) :
    (opening polls outcomes).undecided.size < (polls.filter Poll.isLinked).length + 1 := by
  have hsize := size_foldl_insert_le (polls.filter Poll.isLinked) ∅
  rw [show (∅ : Table Hash Unit).size = 0 from rfl, Nat.zero_add] at hsize
  exact Nat.lt_succ_of_le hsize

/-- The passes begin with what the votes call for. -/
theorem Progress.Sound.opening {store : MemoryStore} {polls : List Poll} {outcomes : Outcomes}
    (hunique : ∀ p ∈ polls, ∀ q ∈ polls, p.key = q.key → p = q)
    (hkeys : ∀ key, outcomes.contains key = true ↔
      ∃ p ∈ polls.filter fun p => !p.isLinked, p.key = key)
    (hright : ∀ p ∈ polls.filter fun p => !p.isLinked, ∀ o, outcomes.find? p.key = some o →
      store.Gathers p o.tally ∧ p.Quorate o.status o.tally) :
    (Progress.opening polls outcomes).Sound polls store := by
  have hown : ∀ {p}, p ∈ polls.filter (fun p => !p.isLinked) ↔ p ∈ polls ∧ p.isLinked = false := by
    intro p
    simp [List.mem_filter]
  have hundecided : ∀ key, (Progress.opening polls outcomes).undecided.contains key = true ↔
      ∃ p ∈ polls.filter Poll.isLinked, p.key = key := by
    intro key
    rw [Progress.opening, contains_foldl_insert]
    exact or_iff_left fun h => by cases h
  refine ⟨fun key => ?_, fun key hkey => ?_, fun p hp hkey => ?_, fun p hp o ho => ?_⟩
  · rw [hundecided, Progress.opening, hkeys]
    constructor
    · rintro (⟨p, hp, hkey⟩ | ⟨p, hp, hkey⟩)
      · exact ⟨p, (List.mem_filter.1 hp).1, hkey⟩
      · exact ⟨p, (List.mem_filter.1 hp).1, hkey⟩
    · rintro ⟨p, hp, hkey⟩
      cases hlinked : p.isLinked with
      | false => exact .inl ⟨p, hown.2 ⟨hp, hlinked⟩, hkey⟩
      | true => exact .inr ⟨p, List.mem_filter.2 ⟨hp, hlinked⟩, hkey⟩
  · obtain ⟨p, hp, rfl⟩ := (hundecided key).1 hkey
    obtain ⟨hp, hlinked⟩ := List.mem_filter.1 hp
    refine Table.contains_eq_false_iff.1 (Bool.eq_false_iff.2 fun hcontains => ?_)
    obtain ⟨q, hq, hkeys⟩ := (hkeys p.key).1 hcontains
    rw [hunique q (hown.1 hq).1 p hp hkeys] at hq
    rw [(hown.1 hq).2] at hlinked
    cases hlinked
  · obtain ⟨q, hq, hkeys⟩ := (hundecided p.key).1 hkey
    obtain ⟨hq, hlinked⟩ := List.mem_filter.1 hq
    rwa [hunique p hp q hq hkeys.symm]
  · obtain ⟨q, hq, hkey⟩ := (hkeys p.key).1 (Table.contains_iff.2 ⟨o, ho⟩)
    rw [hunique q (hown.1 hq).1 p hp hkey] at hq
    obtain ⟨hgathers, hquorate⟩ := hright p hq o ho
    refine ⟨hgathers, fun _ => hquorate, fun hlinked => ?_⟩
    rw [(hown.1 hq).2] at hlinked
    cases hlinked

/-- Counting the votes on these polls, and then passes over those decided by links, come to this
state. -/
def Progress.Reached (s : Progress) (polls : List Poll) (store : MemoryStore) (height : Height) :
    Prop :=
  ∃ outcomes, (Progress.opening polls outcomes).Sound polls store ∧
    Leads (polls.filter Poll.isLinked) store height (.opening polls outcomes) s

/-- What deciding these polls comes upon: a fault in their votes, or links that cannot be read in a
state that the passes have come to. -/
def MemoryStore.DecisionFault (store : MemoryStore) (polls : List Poll) (height : Height)
    (fault : ConsistencyError) : Prop :=
  store.VotesFault polls fault ∨ ∃ s : Progress, s.Reached polls store height ∧
    ∃ p ∈ polls.filter Poll.isLinked, s.undecided.contains p.key = true ∧
      s.Breaks store height p.key fault p.links

/-- A fault that deciding comes upon shows in the store. -/
theorem MemoryStore.DecisionFault.decisionCause {store : MemoryStore} {polls : List Poll}
    {height : Height} {fault : ConsistencyError} (h : store.DecisionFault polls height fault)
    (fallible : Prop) :
    EngineError.DecisionCause store polls height fallible (.consistency fault) := by
  rcases h with hvotes | ⟨s, -, p, hp, -, hbreaks⟩
  · cases hvotes with
    | overflow hp hweighted hsum => exact ⟨_, hp, rfl, hweighted, hsum⟩
    | malformed hp hlinked hquorum => exact ⟨_, hp, rfl, hlinked, hquorum⟩
  · obtain ⟨before, link, after, hlinks, hfault⟩ := hbreaks.exists_split
    have hlink : link ∈ p.links := by simp [hlinks]
    have hmem := (List.mem_filter.1 hp).1
    unfold Progress.linkFault at hfault
    split at hfault
    · cases hfault
    · cases hq : store.polls.find? link with
      | none =>
        rw [MemoryStore.linkFault_of_none hq] at hfault
        cases hfault
        exact ⟨p, hmem, rfl, hlink, hq⟩
      | some q =>
        rw [MemoryStore.linkFault_of_some hq] at hfault
        split at hfault
        · rename_i hstale
          cases hfault
          exact ⟨rfl, hstale.2, q, hq, hstale.1, rfl⟩
        · cases hfault

section

variable {polls : List Poll} {height : Height}

omit [PollStore S] [VoteStore S] [FaithfulStore S] in
/-- **States that are reached are sound.** -/
theorem Progress.Reached.sound {store : MemoryStore} {s : Progress}
    (h : s.Reached polls store height)
    (hunique : ∀ p ∈ polls, ∀ q ∈ polls, p.key = q.key → p = q) : s.Sound polls store := by
  obtain ⟨outcomes, hopening, hleads⟩ := h
  exact hleads.sound (fun p hp => (List.mem_filter.1 hp).1) hunique hopening

theorem ReadFails.decisionFails {e : EngineError} {v' : World MemoryStore L}
    (h : ReadFails S (v.store.DecisionFault polls height) v e v') :
    DecisionFails S polls height v e v' := by
  obtain ⟨hv, hcause⟩ := h
  refine ⟨hv, ?_⟩
  cases hcause with
  | store e hf => exact hf
  | fault he => exact he.decisionCause _

/-- The votes decide every poll that has votes of its own. -/
theorem decideAllByVotes_opens
    (hunique : ∀ p ∈ polls, ∀ q ∈ polls, p.key = q.key → p = q) :
    Yields (S := S) (decideAllByVotes (polls.filter fun p => !p.isLinked)) v
      (fun outcomes v' => v' = v ∧ (Progress.opening polls outcomes).Sound polls v.store)
      (ReadFails S (v.store.VotesFault polls) v) := by
  refine (decideAllByVotes_yields _ (fun p hp => ?_) fun p hp q hq => ?_).mono ?_ fun _ _ he => he
  · obtain ⟨hp, hlinked⟩ := List.mem_filter.1 hp
    exact ⟨hp, by simpa using hlinked⟩
  · exact hunique p (List.mem_filter.1 hp).1 q (List.mem_filter.1 hq).1
  · rintro outcomes _ ⟨rfl, hkeys, hright⟩
    exact ⟨rfl, .opening hunique hkeys hright⟩

/-- Votes and links decide until every poll that is left waits for another. -/
theorem decideByVotesAndLinks_reaches
    (hunique : ∀ p ∈ polls, ∀ q ∈ polls, p.key = q.key → p = q) :
    Yields (S := S) (decideByVotesAndLinks polls height) v
      (fun s v' => v' = v ∧ s.Reached polls v.store height ∧
        ∀ p ∈ polls.filter Poll.isLinked, s.Waits v.store height p)
      (ReadFails S (v.store.DecisionFault polls height) v) := by
  refine .bind ((decideAllByVotes_opens hunique).mono ?_
    fun _ _ he => ReadFails.mono he fun _ hvotes => .inl hvotes)
  rintro outcomes _ ⟨rfl, hopening⟩
  refine (settleLinked_yields (fun p hp => (List.mem_filter.1 hp).2)
    (Progress.size_opening_lt _ _)).mono ?_ ?_
  · rintro s _ ⟨rfl, hleads, hwaits⟩
    exact ⟨rfl, ⟨outcomes, hopening, hleads⟩, hwaits⟩
  · refine fun _ _ he => ReadFails.mono he ?_
    rintro fault ⟨s, hleads, hbreaks⟩
    exact .inr ⟨s, ⟨outcomes, hopening, hleads⟩, hbreaks⟩

/-- Votes and links decide whatever they can: what is then undecided waits for another undecided
poll. -/
theorem decideByVotesAndLinks_yields
    (hunique : ∀ p ∈ polls, ∀ q ∈ polls, p.key = q.key → p = q) :
    Yields (S := S) (decideByVotesAndLinks polls height) v
      (fun s v' => v' = v ∧ s.Sound polls v.store ∧ s.Stuck (polls.filter Poll.isLinked))
      (DecisionFails S polls height v) := by
  refine (decideByVotesAndLinks_reaches hunique).mono ?_ fun _ _ he => ReadFails.decisionFails he
  rintro s _ ⟨rfl, hreached, hwaits⟩
  exact ⟨rfl, hreached.sound hunique, Progress.stuck_of_waits hwaits⟩

/-- **Deciding** comes to a state in which every poll without an outcome waits for another, and
rejects these polls. -/
theorem decidePolls_reaches (hunique : ∀ p ∈ polls, ∀ q ∈ polls, p.key = q.key → p = q)
    (height : Height) :
    Yields (S := S) (decidePolls polls height) v
      (fun o v' => v' = v ∧ ∃ s : Progress, s.Reached polls v.store height ∧
        (∀ p ∈ polls.filter Poll.isLinked, s.Waits v.store height p) ∧
        (∀ key, s.undecided.contains key = true →
          o.find? key = some ⟨.rejected, UInt64.ofNat (v.store.votesOn key).length⟩) ∧
        ∀ key, s.undecided.contains key = false → o.find? key = s.outcomes.find? key)
      (ReadFails S (v.store.DecisionFault polls height) v) := by
  rw [decidePolls_eq]
  refine .bind ((decideByVotesAndLinks_reaches hunique).mono ?_ fun _ _ he => he)
  rintro s _ ⟨rfl, hreached, hwaits⟩
  refine (rejectUndecided_yields s).mono ?_ fun _ _ he => ReadFails.mono he fun _ h => h.elim
  rintro o _ ⟨rfl, hleft, hsame⟩
  exact ⟨rfl, s, hreached, hwaits, hleft, hsame⟩

/-- **Deciding** only reads, gives every poll it is given the right outcome and no other poll any,
and fails only for a reason that the store shows. -/
theorem decidePolls_yields (hunique : ∀ p ∈ polls, ∀ q ∈ polls, p.key = q.key → p = q)
    (height : Height) :
    Yields (S := S) (decidePolls polls height) v
      (fun o v' => v' = v ∧ o.Sound polls v.store)
      (DecisionFails S polls height v) := by
  refine (decidePolls_reaches hunique height).mono ?_ fun _ _ he => ReadFails.decisionFails he
  rintro o _ ⟨rfl, s, hreached, hwaits, hleft, hsame⟩
  exact ⟨rfl, (hreached.sound hunique).close (Progress.stuck_of_waits hwaits) hleft hsame⟩

end

end Finality
