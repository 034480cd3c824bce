import Finality.Engine.Voting
import Finality.Proofs.Engine.Registration

/-!
# What voting does

Bisection of an ascending list finds exactly its members (`bisectContains_iff`), so that a whitelist
that is kept sorted admits whom it lists.

`castVote` either adds exactly one vote that a stored poll admits (`Vote.Admitted`), or leaves the
store alone, whether it answers a refusal or fails (`castVote_yields`).  A vote counts at least one,
and exactly one where balances are not weighed (`weightOf_yields`).

`rollbackVotesAt` removes the votes of one height and no other (`rollbackVotesAt_yields`).
-/

namespace Finality

variable {S L : Type} [PollStore S] [VoteStore S] [FaithfulStore S]
  {v : World MemoryStore L} {Λ : L → Prop}

/-! ## Whitelists -/

/-- What bisection finds is in the list. -/
theorem mem_of_bisectContains {α : Type} [Ord α] [Std.LawfulEqOrd α] {xs : List α} {x : α}
    (h : bisectContains xs x = true) : x ∈ xs := by
  unfold bisectContains at h
  split at h
  · rename_i y hy
    have heq : y = x := Std.LawfulEqCmp.eq_of_compare (of_decide_eq_true h)
    rw [← heq]
    exact List.mem_of_getElem? hy
  · cases h

/-- If an ascending list has `x` among the entries left, bisection ends at an `x`: a half that is
dropped has no `x`, or the one that is kept starts with it. -/
theorem getElem?_bisect {α : Type} [Ord α] [Std.TransOrd α] [Std.LawfulEqOrd α] {xs : List α}
    {x : α} (hxs : xs.Pairwise fun a b => (compare a b).isLE) {halvings start width j : Nat}
    (henough : width ≤ halvings + 1) (hstart : start ≤ j) (hend : j < start + width)
    (hj : xs[j]? = some x) : xs[bisect xs x halvings start width]? = some x := by
  induction halvings generalizing start width j with
  | zero =>
    have hone : start = j := by omega
    rwa [bisect, hone]
  | succ halvings ih =>
    rw [bisect]
    by_cases hnarrow : width ≤ 1
    · have hone : start = j := by omega
      rwa [if_pos hnarrow, hone]
    rw [if_neg hnarrow]
    obtain ⟨hjlt, hjx⟩ := List.getElem?_eq_some_iff.1 hj
    have hfewer : width - width / 2 ≤ halvings + 1 := by omega
    have hleft : j < start + width / 2 → j < start + (width - width / 2) := by omega
    dsimp only
    cases hmiddle : xs[start + width / 2]? with
    | none =>
      have hlength := List.getElem?_eq_none_iff.1 hmiddle
      exact ih hfewer hstart (hleft (Nat.lt_of_lt_of_le hjlt hlength)) hj
    | some y =>
      obtain ⟨hmlt, hmy⟩ := List.getElem?_eq_some_iff.1 hmiddle
      dsimp only
      split
      · rename_i hgt
        refine ih hfewer hstart (hleft ?_) hj
        rcases Nat.lt_trichotomy (start + width / 2) j with hlt | heq | hlt
        · have hle := List.pairwise_iff_getElem.1 hxs _ _ hmlt hjlt hlt
          rw [hmy, hjx, hgt] at hle
          cases hle
        · subst heq
          rw [hmy] at hjx
          rw [hjx, Std.ReflOrd.compare_self] at hgt
          cases hgt
        · exact hlt
      · rename_i hle
        -- An `x` to the left of the middle is not below it, so that the middle is an `x` as well.
        by_cases hright : start + width / 2 ≤ j
        · have hkept : j < start + width / 2 + (width - width / 2) := by omega
          exact ih hfewer hright hkept hj
        · have hxy := List.pairwise_iff_getElem.1 hxs _ _ hjlt hmlt (Nat.lt_of_not_le hright)
          rw [hmy, hjx] at hxy
          have hyx : (compare y x).isLE := by
            cases hc : compare y x with
            | gt => exact absurd hc hle
            | lt => rfl
            | eq => rfl
          have heq : y = x :=
            Std.LawfulEqCmp.eq_of_compare (Std.OrientedCmp.isLE_antisymm hyx hxy)
          exact ih hfewer (Nat.le_refl _) (Nat.lt_add_of_pos_right (by omega)) (heq ▸ hmiddle)

/-- **Bisection of an ascending list** finds exactly its members. -/
theorem bisectContains_iff {α : Type} [Ord α] [Std.TransOrd α] [Std.LawfulEqOrd α] {xs : List α}
    {x : α} (hxs : xs.Pairwise fun a b => (compare a b).isLE) :
    bisectContains xs x = true ↔ x ∈ xs := by
  refine ⟨mem_of_bisectContains, fun hx => ?_⟩
  obtain ⟨j, hj⟩ := List.mem_iff_getElem?.1 hx
  obtain ⟨hjlt, -⟩ := List.getElem?_eq_some_iff.1 hj
  rw [bisectContains, getElem?_bisect hxs (Nat.le_succ _) (Nat.zero_le j) (by omega) hj]
  exact decide_eq_true Std.ReflCmp.compare_self

/-- An account that may vote is in the whitelist, unless that is empty. -/
theorem Poll.mem_whitelist_of_admits {p : Poll} {account : AccountId}
    (h : p.admits account = true) : p.whitelist = [] ∨ account ∈ p.whitelist := by
  rw [admits, Bool.or_eq_true, List.isEmpty_iff] at h
  exact h.imp_right mem_of_bisectContains

/-- Nothing speaks against a vote only if the poll is undecided, the block below its finish height,
and the voter admitted. -/
theorem Poll.refusal_eq_none_iff {p : Poll} {voter : AccountId} {height : Height} :
    p.refusal voter height = none ↔
      p.status = .pending ∧ height < p.finishHeight ∧ p.admits voter = true := by
  unfold refusal
  by_cases hpending : p.status = .pending
  · by_cases hlate : p.finishHeight ≤ height
    · have := UInt64.not_lt.2 hlate
      simp [isPending, hpending, hlate, this]
    · have := UInt64.not_le.1 hlate
      cases hadmits : p.admits voter <;> simp [isPending, hpending, hlate, this]
  · simp [isPending, hpending]

/-! ## Weights -/

/-- What a weight can be on a poll of this model: not zero, and one unless balances are weighed. -/
def VotingModel.Allows (m : VotingModel) (weight : Amount) : Prop :=
  weight ≠ 0 ∧ (m.isWeighted = false → weight = 1)

section

variable [Ledger L]

/-- Asking for a balance changes nothing but what asking may change. -/
theorem balanceOf_yields {Q : Amount → World MemoryStore L → Prop}
    {E : LedgerError → World MemoryStore L → Prop} (hΛ : QueriesKeep Λ) (h : Λ v.ledger)
    {account : AccountId} {holding : Holding} {height : Height}
    (hQ : ∀ balance v', v'.store = v.store → Λ v'.ledger → Q balance v')
    (hE : ∀ e v', v'.store = v.store → Λ v'.ledger → E e v') :
    Yields (S := S) (Ledger.balanceOf account holding height) v Q E := by
  have hkept := hΛ.balanceOf account holding height v.ledger h
  refine .ledger ?_
  rcases hx : (Ledger.balanceOf account holding height).start v.ledger with ⟨e | balance, l⟩
  · rw [hx] at hkept
    exact (Action.wp_of_start_error hx).2 (hE e _ rfl hkept)
  · rw [hx] at hkept
    exact (Action.wp_of_start_ok hx).2 (hQ balance _ rfl hkept)

theorem checkFloor_yields (hΛ : QueriesKeep Λ) (h : Λ v.ledger) (floor : BalanceFloor)
    (required : Amount) (voter : AccountId) (height : Height) :
    Yields (S := S) (checkFloor floor required voter height) v
      (fun _ v' => v'.store = v.store ∧ Λ v'.ledger)
      (fun _ v' => v'.store = v.store ∧ Λ v'.ledger) := by
  unfold checkFloor
  split
  · exact .pure ⟨rfl, h⟩
  · split
    · exact .pure ⟨rfl, h⟩
    · exact .bind (balanceOf_yields hΛ h (fun _ _ hstore hledger => .pure ⟨hstore, hledger⟩)
        fun _ _ hstore hledger => ⟨hstore, hledger⟩)

/-- A weight that is a balance is not zero. -/
theorem weigh_yields (hΛ : QueriesKeep Λ) (h : Λ v.ledger) (floor : BalanceFloor)
    (required : Amount) (holding : Holding) (voter : AccountId) (height : Height) :
    Yields (S := S) (do
      match ← checkFloor floor required voter height with
      | some reason => return Eligibility.ineligible reason
      | none =>
        let balance ← Ledger.balanceOf voter holding height
        return if balance = 0 then .ineligible .noHolding else .eligible balance) v
      (fun eligibility v' => v'.store = v.store ∧ Λ v'.ledger ∧
        ∀ weight, eligibility = .eligible weight → weight ≠ 0)
      (fun _ v' => v'.store = v.store ∧ Λ v'.ledger) := by
  refine .bind ((checkFloor_yields hΛ h floor required voter height).mono ?_ fun _ _ he => he)
  rintro reason v₁ ⟨hstore, hledger⟩
  cases reason with
  | some reason => exact .pure ⟨hstore, hledger, fun _ heq => by cases heq⟩
  | none =>
    refine .bind (balanceOf_yields hΛ hledger ?_ ?_)
    · intro balance v₂ hstore₂ hledger₂
      refine .pure ⟨hstore₂.trans hstore, hledger₂, fun weight heq => ?_⟩
      split at heq
      · cases heq
      · rename_i hbalance
        cases heq
        exact hbalance
    · exact fun _ _ hstore₂ hledger₂ => ⟨hstore₂.trans hstore, hledger₂⟩

omit [PollStore S] [VoteStore S] [FaithfulStore S] in
/-- What a vote counts is asked of the ledger alone. -/
theorem Poll.weightOf_onLedger (p : Poll) (voter : AccountId) (height : Height) :
    (p.weightOf voter height : Action (World S L) LedgerError Eligibility)
      = World.onLedger (p.weightOf voter height) := by
  have hpure : ∀ {β : Type} (b : β), (Pure.pure b : Action (World S L) LedgerError β)
      = World.onLedger (Pure.pure b) := fun _ => rfl
  have hfloor : ∀ floor required,
      (checkFloor floor required voter height : Action (World S L) LedgerError _)
        = World.onLedger (checkFloor floor required voter height) := by
    intro floor required
    unfold checkFloor
    split
    · exact hpure _
    · split
      · exact hpure _
      · rw [World.onLedger_bind]
        rfl
  unfold weightOf VoterCriteria.weight
  split
  · exact hpure _
  · exact hpure _
  · rw [World.onLedger_bind, hfloor]
    refine congrArg _ (funext fun reason => ?_)
    cases reason <;> exact hpure _
  all_goals
    rw [World.onLedger_bind, hfloor]
    refine congrArg _ (funext fun reason => ?_)
    cases reason with
    | some reason => exact hpure _
    | none =>
      dsimp only
      rw [World.onLedger_bind]
      rfl

/-- Weighing a vote changes nothing, and what it counts is what the poll's model allows. -/
theorem weightOf_allows (hΛ : QueriesKeep Λ) (h : Λ v.ledger) (p : Poll) (voter : AccountId)
    (height : Height) :
    Yields (S := S) (p.weightOf voter height) v
      (fun eligibility v' => v'.store = v.store ∧ Λ v'.ledger ∧
        ∀ weight, eligibility = .eligible weight → p.model.Allows weight)
      (fun _ v' => v'.store = v.store ∧ Λ v'.ledger) := by
  have hone : ∀ weight, Eligibility.eligible 1 = .eligible weight → p.model.Allows weight := by
    rintro _ ⟨⟩
    exact ⟨by decide, fun _ => rfl⟩
  have hbalance : ∀ kind, p.model.isWeighted = true →
      Yields (S := S) (do
        match ← checkFloor p.criteria.effectiveFloor p.minBalance voter height with
        | some reason => return Eligibility.ineligible reason
        | none =>
          let balance ← Ledger.balanceOf voter ⟨kind, p.holding⟩ height
          return if balance = 0 then .ineligible .noHolding else .eligible balance) v
        (fun eligibility v' => v'.store = v.store ∧ Λ v'.ledger ∧
          ∀ weight, eligibility = .eligible weight → p.model.Allows weight)
        (fun _ v' => v'.store = v.store ∧ Λ v'.ledger) := by
    intro kind hweighted
    refine (weigh_yields hΛ h _ _ _ voter height).mono ?_ fun _ _ he => he
    rintro eligibility v' ⟨hstore, hledger, hpos⟩
    refine ⟨hstore, hledger, fun weight heq => ⟨hpos weight heq, fun hnot => ?_⟩⟩
    rw [hweighted] at hnot
    cases hnot
  obtain ⟨key, account, created, finish, model, holding, minBalance, floor⟩ := p
  cases model with
  | none => exact .pure ⟨rfl, h, hone⟩
  | transactionApproval => exact .pure ⟨rfl, h, hone⟩
  | account =>
    refine .bind ((checkFloor_yields hΛ h _ _ voter height).mono ?_ fun _ _ he => he)
    rintro reason v₁ ⟨hstore, hledger⟩
    cases reason with
    | some reason => exact .pure ⟨hstore, hledger, fun _ heq => by cases heq⟩
    | none => exact .pure ⟨hstore, hledger, hone⟩
  | assetWeighted => exact hbalance _ rfl
  | currencyWeighted => exact hbalance _ rfl

/-- **Weighing a vote** changes nothing, and what it counts is what the ledger answers and the
poll's model allows. -/
theorem weightOf_yields (hΛ : QueriesKeep Λ) (h : Λ v.ledger) (p : Poll) (voter : AccountId)
    (height : Height) :
    Yields (S := S) (p.weightOf voter height) v
      (fun eligibility v' => (v'.store = v.store ∧ Λ v'.ledger ∧
          ∀ weight, eligibility = .eligible weight → p.model.Allows weight) ∧
        (p.weightOf voter height).start v.ledger = (.ok eligibility, v'.ledger))
      (fun _ v' => v'.store = v.store ∧ Λ v'.ledger) := by
  have hanswer : Yields (S := S) (p.weightOf voter height) v
      (fun eligibility v' =>
        (p.weightOf voter height).start v.ledger = (.ok eligibility, v'.ledger))
      (fun _ _ => True) := by
    rw [Poll.weightOf_onLedger]
    refine .ledger ?_
    rcases hx : (p.weightOf voter height).start v.ledger with ⟨e | eligibility, l⟩
    · exact (Action.wp_of_start_error hx).2 trivial
    · exact (Action.wp_of_start_ok hx).2 rfl
  exact ((weightOf_allows hΛ h p voter height).and hanswer).mono (fun _ _ h => h) fun _ _ h => h.1

/-! ## Casting -/

/-- A vote that the polls and votes of a store admit. -/
structure Vote.Admitted (s : MemoryStore) (x : Vote) : Prop where
  /-- Its poll is stored, nothing speaks against the voter, and the poll's model allows the
  weight. -/
  poll : ∃ p, s.polls.find? x.poll = some p ∧ p.refusal x.voter x.height = none ∧
    p.model.Allows x.weight
  /-- The voter has no vote on the poll. -/
  new : s.votes.find? x.id = none

/-- What the store holds after a vote was cast with this outcome. -/
def VoteOutcome.Stores (poll : Hash) (voter : AccountId) (height : Height) (s s' : MemoryStore) :
    VoteOutcome → Prop
  | .accepted weight =>
    let x : Vote := { poll, voter, weight, height }
    x.Admitted s ∧ s' = { s with votes := s.votes.insert x.id x }
  | .rejected _ => s' = s

/-- If a vote was accepted, its weight is what the ledger has answered for its poll. -/
def VoteOutcome.Weighs (poll : Hash) (voter : AccountId) (height : Height) (v : World MemoryStore L)
    (l : L) : VoteOutcome → Prop
  | .accepted weight => ∃ p, v.store.polls.find? poll = some p ∧
    (p.weightOf voter height).start v.ledger = (.ok (.eligible weight), l)
  | .rejected _ => True

/-- **Casting a vote** stores the vote if it is accepted, and nothing else. -/
theorem castVote_yields (hΛ : QueriesKeep Λ) (h : Λ v.ledger) (poll : Hash) (voter : AccountId)
    (height : Height) :
    Yields (S := S) (castVote poll voter height) v
      (fun o v' => o.Stores poll voter height v.store v'.store ∧ Λ v'.ledger ∧
        o.Weighs poll voter height v v'.ledger)
      (fun e v' => v'.store = v.store ∧ Λ v'.ledger ∧ e.IsPlain (FaithfulStore.fallible S)) := by
  unfold castVote
  refine .bind (.inStore (yields_findPoll (fun hf e => ⟨rfl, h, hf⟩) ?_))
  split
  · exact .pure ⟨rfl, h, trivial⟩
  · rename_i p hp
    split
    · exact .pure ⟨rfl, h, trivial⟩
    · rename_i hrefusal
      refine .bind (.inStore (yields_findVote (fun hf e => ⟨rfl, h, hf⟩) ?_))
      split
      · exact .pure ⟨rfl, h, trivial⟩
      · rename_i hnew
        refine .bind (.inLedger ((weightOf_yields hΛ h p voter height).mono ?_
          fun _ _ he => ⟨he.1, he.2, trivial⟩))
        rintro eligibility v₁ ⟨⟨hstore, hledger, hallows⟩, hweighed⟩
        cases eligibility with
        | ineligible reason => exact .pure ⟨hstore, hledger, trivial⟩
        | eligible weight =>
          have hnew' : v.store.votes.find? ⟨poll, voter⟩ = none := by simpa using hnew
          refine .bind (.outcome (yields_insertVote (fun hf e => ?_) (by rwa [hstore]) ?_))
          · cases e with
            | duplicate what => exact .pure ⟨hstore, hledger, trivial⟩
            | notFound what => exact .throw ⟨hstore, hledger, hf⟩
            | backend what => exact .throw ⟨hstore, hledger, hf⟩
            | serialization what => exact .throw ⟨hstore, hledger, hf⟩
            | corruption what => exact .throw ⟨hstore, hledger, hf⟩
          · rw [hstore]
            exact .pure ⟨⟨⟨⟨p, hp, hrefusal, hallows weight rfl⟩, hnew'⟩, rfl⟩, hledger, p, hp,
              hweighed⟩

end

/-! ## Taking votes back -/

/-- Removing votes one by one removes them all; if the store fails, some of them. -/
theorem deleteVotes_yields (ids : List (Hash × AccountId)) (v : World MemoryStore L) :
    Yields (S := S) (deleteVotes ids) v
      (fun _ v' => v' = { v with store := { v.store with
        votes := v.store.votes.eraseAll (ids.map fun id => ⟨id.1, id.2⟩) } })
      (fun e v' => (∃ e', e = .store e') ∧ FaithfulStore.fallible S ∧
        ∃ keys ⊆ ids.map fun id => ⟨id.1, id.2⟩,
          v' = { v with store := { v.store with votes := v.store.votes.eraseAll keys } }) := by
  induction ids generalizing v with
  | nil => exact .pure rfl
  | cons id ids ih =>
    obtain ⟨poll, voter⟩ := id
    refine .bind (.inStore (yields_deleteVote
      (fun hf e => ⟨⟨e, rfl⟩, hf, [], List.nil_subset _, rfl⟩) ?_))
    refine .bind ((ih _).mono (fun others v' hv' => .pure ?_) ?_)
    · rw [hv']
      rfl
    · rintro e v' ⟨he, hf, keys, hsub, hv'⟩
      exact ⟨he, hf, ⟨poll, voter⟩ :: keys, List.cons_subset_cons _ hsub, hv'⟩

/-- **Taking back the votes of a block** removes the votes of its height; if the store fails, some
of them. -/
theorem rollbackVotesAt_yields (height : Height) :
    Yields (S := S) (rollbackVotesAt height) v
      (fun _ v' => v' = { v with store := { v.store with
        votes := v.store.votes.eraseAll
          ((v.store.votesCastAt height).map fun id => ⟨id.1, id.2⟩) } })
      (fun e v' => (∃ e', e = .store e') ∧ FaithfulStore.fallible S ∧
        ∃ keys ⊆ (v.store.votesCastAt height).map fun id => ⟨id.1, id.2⟩,
          v' = { v with store := { v.store with votes := v.store.votes.eraseAll keys } }) := by
  unfold rollbackVotesAt
  exact .bind (.inStore (yields_votesCastAt
    (fun hf e => ⟨⟨e, rfl⟩, hf, [], List.nil_subset _, rfl⟩) (deleteVotes_yields _ v)))

end Finality
