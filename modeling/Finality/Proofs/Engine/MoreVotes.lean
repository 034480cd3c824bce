import Finality.Proofs.Engine.Resolved
import Mathlib.Algebra.Order.BigOperators.Group.List
import Mathlib.Algebra.Order.Ring.Nat
import Mathlib.Data.List.Nodup
import Mathlib.Data.List.Perm.Subperm

/-!
# More votes

With more votes on the same polls, nothing that was approved is rejected, and no tally is smaller.
For polls with votes of their own this is a matter of sums.  Polls decided by links may be decided
in other passes then, so the two runs are not compared pass by pass.  What is approved with fewer
votes is the *least* set that is closed under the rule of links; what is approved with more votes is
closed under that rule as well, since more votes uphold more links, and so it is not smaller.

* `MemoryStore.MoreVotes` — the same polls, and every vote with its weight.
* `MoreVotes.gathered_le` — more votes come to more, by number and by weight.
* `length_votesOn_lt` — that number fits 64 bits, unless all accounts there can be have voted.
* `MoreVotes.closedAt` — what is closed with more votes is closed with fewer.
* `resolveHeight_isLeast` — resolving approves the least closed set.
* `more_votes_unapprove_nothing` — the result.
-/

namespace Finality

variable {S L : Type}

/-! ## Votes -/

/-- The sum of weights is that of the numbers. -/
theorem totalWeight_eq_sum (weights : List Amount) :
    totalWeight weights = (weights.map UInt64.toNat).sum := by
  induction weights with
  | nil => rfl
  | cons weight weights ih =>
    rw [List.map_cons, List.sum_cons, ← ih]
    rfl

namespace MemoryStore

/-- What counts of the votes on a poll: who has voted, and with what weight. -/
def ballotsOn (key : Hash) (s : MemoryStore) : List (VoteKey × Amount) :=
  (s.votes.entries.filter fun e => e.1.poll = key).map fun e => (e.1, e.2.weight)

theorem map_weight_votesOn (key : Hash) (s : MemoryStore) :
    (s.votesOn key).map Vote.weight = (s.ballotsOn key).map Prod.snd := by
  rw [votesOn, ballotsOn, List.map_map, List.map_map]
  rfl

theorem length_votesOn (key : Hash) (s : MemoryStore) :
    (s.votesOn key).length = (s.ballotsOn key).length := by
  rw [votesOn, ballotsOn, List.length_map, List.length_map]

theorem mem_ballotsOn {key : Hash} {s : MemoryStore} {id : VoteKey} {weight : Amount} :
    (id, weight) ∈ s.ballotsOn key ↔
      id.poll = key ∧ ∃ x, s.votes.find? id = some x ∧ x.weight = weight := by
  rw [ballotsOn, List.mem_map]
  constructor
  · rintro ⟨⟨id, x⟩, hmem, heq⟩
    cases heq
    obtain ⟨hmem, hpoll⟩ := List.mem_filter.1 hmem
    exact ⟨of_decide_eq_true hpoll, x, (s.votes.mem_entries_iff _ _).1 hmem, rfl⟩
  · rintro ⟨hpoll, x, hx, rfl⟩
    have hmem := (s.votes.mem_entries_iff id x).2 hx
    exact ⟨(id, x), List.mem_filter.2 ⟨hmem, decide_eq_true hpoll⟩, rfl⟩

/-- Nobody votes twice on a poll. -/
theorem nodup_ballotsOn (key : Hash) (s : MemoryStore) :
    ((s.ballotsOn key).map fun ballot => ballot.1.voter.id.toNat).Nodup := by
  have hids : ((s.ballotsOn key).map Prod.fst).Nodup := by
    rw [ballotsOn, List.map_map]
    exact s.votes.nodup_keys.sublist (List.filter_sublist.map _)
  refine List.Nodup.map_on ?_ (List.Nodup.of_map _ hids)
  rintro ⟨⟨poll, ⟨n⟩⟩, weight⟩ hmem ⟨⟨poll', ⟨n'⟩⟩, weight'⟩ hmem' hnumber
  refine List.inj_on_of_nodup_map hids hmem hmem' ?_
  cases (mem_ballotsOn.1 hmem).1.trans (mem_ballotsOn.1 hmem').1.symm
  cases UInt64.toNat_inj.1 hnumber
  rfl

/-- **The number of votes fits** into 64 bits, unless every account there can be has voted. -/
theorem length_votesOn_lt {key : Hash} {s : MemoryStore} {account : AccountId}
    (hnone : s.votes.find? ⟨key, account⟩ = none) : (s.votesOn key).length < UInt64.size := by
  let numbers := (s.ballotsOn key).map fun ballot => ballot.1.voter.id.toNat
  have hnew : account.id.toNat ∉ numbers := by
    intro hmem
    obtain ⟨⟨⟨poll, ⟨n⟩⟩, weight⟩, hballot, hnumber⟩ := List.mem_map.1 hmem
    obtain ⟨rfl, x, hx, -⟩ := mem_ballotsOn.1 hballot
    cases UInt64.toNat_inj.1 hnumber
    cases hnone.symm.trans hx
  have hsub : account.id.toNat :: numbers ⊆ List.range UInt64.size := by
    rintro number hmem
    rw [List.mem_range]
    rcases List.mem_cons.1 hmem with rfl | hmem
    · exact account.id.toNat_lt
    · obtain ⟨ballot, -, rfl⟩ := List.mem_map.1 hmem
      exact ballot.1.voter.id.toNat_lt
  have hlength := ((List.nodup_cons.2 ⟨hnew, nodup_ballotsOn key s⟩).subperm hsub).length_le
  rwa [List.length_cons, List.length_map, List.length_range, ← length_votesOn] at hlength

/-- The polls are the same, and every vote is there with its weight, and maybe more. -/
structure MoreVotes (s s' : MemoryStore) : Prop where
  /-- The polls are the same. -/
  polls : s'.polls = s.polls
  /-- Every vote is there. -/
  votes : ∀ {id x}, s.votes.find? id = some x →
    ∃ y, s'.votes.find? id = some y ∧ y.weight = x.weight

namespace MoreVotes

variable {s s' : MemoryStore}

theorem ballotsOn_subperm (h : s.MoreVotes s') (key : Hash) :
    (s.ballotsOn key).Subperm (s'.ballotsOn key) := by
  refine (List.Nodup.of_map _ (nodup_ballotsOn key s)).subperm ?_
  rintro ⟨id, weight⟩ hmem
  obtain ⟨hpoll, x, hx, rfl⟩ := mem_ballotsOn.1 hmem
  obtain ⟨y, hy, hweight⟩ := h.votes hx
  exact mem_ballotsOn.2 ⟨hpoll, y, hy, hweight⟩

/-- **More votes come to more.** -/
theorem gathered_le (h : s.MoreVotes s') (p : Poll) : s.gathered p ≤ s'.gathered p := by
  obtain ⟨ballots, hperm, hsub⟩ := h.ballotsOn_subperm p.key
  unfold gathered
  split
  · rw [map_weight_votesOn, map_weight_votesOn, totalWeight_eq_sum, totalWeight_eq_sum,
      ← ((hperm.map Prod.snd).map UInt64.toNat).sum_eq]
    exact ((hsub.map _).map _).sum_le_sum fun _ _ => Nat.zero_le _
  · rw [length_votesOn, length_votesOn, ← hperm.length_eq]
    exact hsub.length_le

/-- So do the tallies, as long as there is room for one more vote on every poll. -/
theorem tally_le (h : s.MoreVotes s')
    (hroom : ∀ key, ∃ account, s'.votes.find? ⟨key, account⟩ = none) {p : Poll}
    {tally tally' : Amount} (hgathers : s.Gathers p tally) (hgathers' : s'.Gathers p tally') :
    tally ≤ tally' := by
  have hle := h.gathered_le p
  have hfits : s'.gathered p < UInt64.size := by
    cases hweighted : p.model.isWeighted with
    | true => exact hgathers'.fits hweighted
    | false =>
      obtain ⟨account, hnone⟩ := hroom p.key
      rw [gathered, hweighted]
      exact length_votesOn_lt hnone
  rw [hgathers.tally, hgathers'.tally, UInt64.le_iff_toNat_le,
    UInt64.toNat_ofNat_of_lt' (Nat.lt_of_le_of_lt hle hfits), UInt64.toNat_ofNat_of_lt' hfits]
  exact hle

variable {height : Height} {approved : Set Hash} (h : s.MoreVotes s')
  (hroom : ∀ key, ∃ account, s'.votes.find? ⟨key, account⟩ = none)
  (hgathers : ∀ {key p}, s'.polls.find? key = some p → p.finishHeight = height →
    ∃ tally, s'.Gathers p tally)
include h hroom hgathers

/-- With more votes, a link that counts as approved still does. -/
theorem upholds {link : Hash} (hlink : s.Upholds height approved link) :
    s'.Upholds height approved link := by
  refine hlink.imp_right ?_
  rintro ⟨q, hq, hcounts⟩
  rw [← h.polls] at hq
  refine ⟨q, hq, hcounts.imp_left ?_⟩
  rintro ⟨hdue, hown, quorum, tally, hquorum, hcounted, hreached⟩
  obtain ⟨tally', hcounted'⟩ := hgathers hq hdue
  exact ⟨hdue, hown, quorum, tally', hquorum, hcounted',
    UInt64.le_trans hreached (h.tally_le hroom hcounted hcounted')⟩

/-- **What is closed with more votes is closed with fewer.** -/
theorem closedAt (hclosed : s'.ClosedAt height approved) : s.ClosedAt height approved := by
  intro key p hp hheight hmodel hlinks
  rw [← h.polls] at hp
  refine hclosed key p hp hheight hmodel fun link hlink => ?_
  exact h.upholds hroom hgathers (hlinks link hlink)

end MoreVotes

end MemoryStore

/-! ## Resolving -/

section

variable [PollStore S] [VoteStore S] [FaithfulStore S] {v : World MemoryStore L}

/-- The polls due at a height are approved by links as the least closed set has it. -/
theorem decideHeight_isLeast (hs : v.store.Keyed) (height : Height) :
    Yields (S := S) (decideHeight height) v
      (fun r _ => ∀ polls outcomes, r = some (polls, outcomes) →
        IsLeast {approved | v.store.ClosedAt height approved} (outcomes.linkedApprovals polls))
      (fun _ _ => True) := by
  unfold decideHeight
  refine .bind (.inStore (yields_pollsFinishingAt (fun _ _ => trivial) ?_))
  split
  · exact .throw trivial
  · split
    · refine .pure ?_
      rintro _ _ ⟨⟩
    · refine .bind ((decidePolls_isLeast (hs.due (.refl _))).mono ?_ fun _ _ _ => trivial)
      rintro outcomes v' ⟨-, -, hleast⟩
      refine .pure ?_
      rintro _ _ ⟨⟩
      exact hleast

variable [Ledger L]

/-- **Resolving a height approves the least closed set** of the polls decided by links. -/
theorem resolveHeight_isLeast (hs : v.store.Keyed) (height : Height) :
    Yields (S := S) (resolveHeight height) v
      (fun _ v' => ∃ outcomes : Outcomes, outcomes.Decide height v.store ∧
        v'.store = v.store.settle outcomes ∧
        IsLeast {approved | v.store.ClosedAt height approved}
          (outcomes.linkedApprovals (v.store.pollsWhere (·.finishHeight = height))))
      (fun _ _ => True) := by
  rw [resolveHeight_eq]
  refine .bind (((decideHeight_yields hs height).and (decideHeight_isLeast hs height)).mono ?_
    fun _ _ _ => trivial)
  rintro (_ | ⟨polls, outcomes⟩) v₁ ⟨⟨rfl, hr⟩, hleast⟩
  · have hdue := hs.due (.refl (v₁.store.pollsWhere (·.finishHeight = height)))
    refine .pure ⟨∅, Outcomes.decide_empty hr, by simp, fun key p hp hheight => ?_, ?_⟩
    · have hmem := (hdue.complete hp hheight).1
      rw [hr] at hmem
      cases hmem
    · rintro approved - key ⟨p, hp, -⟩
      rw [hr] at hp
      cases hp
  · obtain ⟨rfl, hdecide⟩ := hr
    refine .bind (commit_yields outcomes.nodup_resolutions hdecide.stored (fun l hl => ?_)
      (fun _ _ _ => trivial) fun _ _ _ => trivial)
    exact .pure ⟨outcomes, hdecide, MemoryStore.write_resolutions _ _, hleast _ _ rfl⟩

end

/-! ## The result -/

namespace Outcomes.Decide

variable {s s' : MemoryStore} {height : Height} {outcomes outcomes' : Outcomes}

/-- Votes on the polls that are due have been counted. -/
theorem exists_gathers (h : outcomes.Decide height s) {key : Hash} {p : Poll}
    (hp : s.polls.find? key = some p) (hheight : p.finishHeight = height) :
    ∃ tally, s.Gathers p tally := by
  obtain ⟨o, ho⟩ := Table.contains_iff.1 (h.keys.2 ⟨p, hp, hheight⟩)
  exact ⟨o.tally, (h.warrants hp ho).gathers⟩

/-- What gets an outcome with the same polls is the same. -/
theorem contains_iff (h : outcomes.Decide height s) (h' : outcomes'.Decide height s')
    (hpolls : s'.polls = s.polls) {key : Hash} :
    outcomes'.contains key = true ↔ outcomes.contains key = true := by
  rw [h.keys, h'.keys, hpolls]

/-- With more votes and more approvals by links, a poll that was approved is approved. -/
theorem approved_of_more (h : outcomes.Decide height s) (h' : outcomes'.Decide height s')
    (hs : s.Keyed) (happrovals : outcomes.linkedApprovals (s.pollsWhere (·.finishHeight = height)) ⊆
      outcomes'.linkedApprovals (s'.pollsWhere (·.finishHeight = height)))
    {key : Hash} {p : Poll} {o o' : Outcome} (hp : s.polls.find? key = some p)
    (hp' : s'.polls.find? key = some p) (hheight : p.finishHeight = height)
    (ho : outcomes.find? key = some o) (ho' : outcomes'.find? key = some o')
    (htally : o.tally ≤ o'.tally) (happroved : o.status = .approved) : o'.status = .approved := by
  have hwarrants := h.warrants hp ho
  have hwarrants' := h'.warrants hp' ho'
  cases hlinked : p.isLinked with
  | true =>
    have hdue : p ∈ s.pollsWhere (·.finishHeight = height) :=
      MemoryStore.mem_pollsWhere.2 ⟨⟨key, hp⟩, decide_eq_true hheight⟩
    obtain ⟨-, -, -, -, x, hx, hstatus⟩ :=
      happrovals ⟨p, hdue, hlinked, hs.polls hp, o, ho, happroved⟩
    cases ho'.symm.trans hx
    exact hstatus
  | false =>
    obtain ⟨quorum, hquorum, hreached⟩ := (hwarrants.votes hlinked).approved_iff
    exact (hwarrants'.votes hlinked).approved_of_reachesQuorum hwarrants'.gathers
      ⟨quorum, o'.tally, hquorum, hwarrants'.gathers,
        UInt64.le_trans (hreached.1 happroved) htally⟩

end Outcomes.Decide

section

variable [PollStore S] [VoteStore S] [FaithfulStore S] [Ledger L]

/-- **More votes un-approve nothing.**  Over two stores with the same polls, of which the second has
every vote of the first with the same weight, and maybe more: if resolving a height succeeds with
both, then every poll that is approved with the first is approved with the second, polls decided by
links included, whatever their links, and the tally of every poll with the second is at least its
tally with the first.  On each poll, the second store must have room for one more vote: there are as
many accounts as a tally has values, so that a count of all of them would not fit. -/
theorem more_votes_unapprove_nothing {w₁ w₂ w₁' w₂' : World S L} {height : Height}
    {resolved₁ resolved₂ : List ResolvedPoll} (hs₁ : w₁.view.store.Keyed)
    (hs₂ : w₂.view.store.Keyed) (hmore : w₁.view.store.MoreVotes w₂.view.store)
    (hroom : ∀ key, ∃ account, w₂.view.store.votes.find? ⟨key, account⟩ = none)
    (hrun₁ : (resolveHeight height).start w₁ = (.ok resolved₁, w₁'))
    (hrun₂ : (resolveHeight height).start w₂ = (.ok resolved₂, w₂')) :
    ∀ key p₁, w₁'.view.store.polls.find? key = some p₁ →
      ∃ p₂, w₂'.view.store.polls.find? key = some p₂ ∧
        (p₁.status = .approved → p₂.status = .approved) ∧ p₁.tally ≤ p₂.tally := by
  obtain ⟨outcomes₁, hdecide₁, hstore₁, hleast⟩ := (resolveHeight_isLeast hs₁ height).of_ok hrun₁
  obtain ⟨outcomes₂, hdecide₂, hstore₂, hclosed, -⟩ :=
    (resolveHeight_isLeast hs₂ height).of_ok hrun₂
  -- Least with fewer votes, and closed with more: the first is within the second.
  have happroves := hleast.2 (hmore.closedAt hroom hdecide₂.exists_gathers hclosed)
  intro key p₁ hp₁
  rw [hstore₁] at hp₁
  rw [hstore₂]
  rcases MemoryStore.find?_settle.1 hp₁ with ⟨p, o₁, hp, ho₁, rfl⟩ | ⟨hp, hnone⟩
  · have hcontains := Table.contains_iff.2 ⟨o₁, ho₁⟩
    obtain ⟨q, hq, hheight⟩ := hdecide₁.keys.1 hcontains
    cases hp.symm.trans hq
    have hp' : w₂.view.store.polls.find? key = some p := by rwa [hmore.polls]
    obtain ⟨o₂, ho₂⟩ :=
      Table.contains_iff.1 ((hdecide₁.contains_iff hdecide₂ hmore.polls).2 hcontains)
    have htally : o₁.tally ≤ o₂.tally := hmore.tally_le hroom (hdecide₁.warrants hp ho₁).gathers
      (hdecide₂.warrants hp' ho₂).gathers
    exact ⟨p.resolve ⟨key, o₂.status, o₂.tally⟩,
      MemoryStore.find?_settle.2 (.inl ⟨p, o₂, hp', ho₂, rfl⟩),
      hdecide₁.approved_of_more hdecide₂ hs₁ happroves hp hp' hheight ho₁ ho₂ htally, htally⟩
  · have hnone' : outcomes₂.find? key = none := by
      rw [← Table.contains_eq_false_iff, ← Bool.not_eq_true,
        hdecide₁.contains_iff hdecide₂ hmore.polls, Bool.not_eq_true,
        Table.contains_eq_false_iff]
      exact hnone
    have hp' : w₂.view.store.polls.find? key = some p₁ := by rwa [hmore.polls]
    exact ⟨p₁, MemoryStore.find?_settle.2 (.inr ⟨hp', hnone'⟩), id, UInt64.le_refl _⟩

end

/-- At height ten there are due a poll for which one vote is enough, one that takes two, and two
that link to these, the second one through the first. -/
def MemoryStore.chained (vs : List Vote) : MemoryStore :=
  holding
    [(PollRequest.single (.filled 1) 10).toPoll 1,
      (PollRequest.linking (.filled 2) [.filled 1] 10).toPoll 1,
      { (PollRequest.single (.filled 3) 10).toPoll 1 with quorum := some 2 },
      (PollRequest.linking (.filled 4) [.filled 3, .filled 2] 10).toPoll 1] vs

/-- With one vote more, a poll reaches its quorum, and the one that links to it is approved as
well. -/
theorem more_votes_unapprove_nothing_chained :
    let few : List Vote := [⟨.filled 1, ⟨7⟩, 1, 2⟩, ⟨.filled 3, ⟨7⟩, 1, 3⟩]
    let more : List Vote := few ++ [⟨.filled 3, ⟨8⟩, 1, 4⟩]
    let w₁ : World MemoryStore SimulatedLedger := ⟨.chained few, .mixed⟩
    let w₂ : World MemoryStore SimulatedLedger := ⟨.chained more, .mixed⟩
    let decisions := fun (resolved : List ResolvedPoll) =>
      resolved.map fun r => (r.key, r.status, r.tally)
    ∃ resolved₁ w₁' resolved₂ w₂',
      (resolveHeight 10).start w₁ = (.ok resolved₁, w₁') ∧
      (resolveHeight 10).start w₂ = (.ok resolved₂, w₂') ∧
      decisions resolved₁ = [(.filled 1, .approved, 1), (.filled 2, .approved, 0),
        (.filled 3, .rejected, 1), (.filled 4, .rejected, 0)] ∧
      decisions resolved₂ = [(.filled 1, .approved, 1), (.filled 2, .approved, 0),
        (.filled 3, .approved, 2), (.filled 4, .approved, 0)] ∧
      ∀ key p₁, w₁'.store.polls.find? key = some p₁ →
        ∃ p₂, w₂'.store.polls.find? key = some p₂ ∧
          (p₁.status = .approved → p₂.status = .approved) ∧ p₁.tally ≤ p₂.tally := by
  intro few more w₁ w₂ decisions
  have hkeyed₁ : w₁.view.store.Keyed := MemoryStore.keyed_holding _ _
  have hkeyed₂ : w₂.view.store.Keyed := MemoryStore.keyed_holding _ _
  have hmore : w₁.view.store.MoreVotes w₂.view.store := by
    have hentries : ∀ e ∈ w₁.store.votes.entries,
        (w₂.store.votes.find? e.1).map Vote.weight = some e.2.weight := by
      decide +kernel
    refine ⟨rfl, fun {id x} hx => ?_⟩
    have hweight := hentries (id, x) ((Table.mem_entries_iff _ _ _).2 hx)
    exact Option.map_eq_some_iff.1 hweight
  have hroom : ∀ key, ∃ account, w₂.view.store.votes.find? ⟨key, account⟩ = none := by
    have hentries : ∀ e ∈ w₂.store.votes.entries, e.1.voter ≠ ⟨9⟩ := by decide +kernel
    refine fun key => ⟨⟨9⟩, Option.eq_none_iff_forall_ne_some.2 fun x hx => ?_⟩
    exact hentries _ ((Table.mem_entries_iff _ _ _).2 hx) rfl
  have hdecisions₁ : ((resolveHeight 10).start w₁).1.toOption.map decisions = some
      [(.filled 1, .approved, 1), (.filled 2, .approved, 0), (.filled 3, .rejected, 1),
        (.filled 4, .rejected, 0)] := by
    decide +kernel
  have hdecisions₂ : ((resolveHeight 10).start w₂).1.toOption.map decisions = some
      [(.filled 1, .approved, 1), (.filled 2, .approved, 0), (.filled 3, .approved, 2),
        (.filled 4, .approved, 0)] := by
    decide +kernel
  rcases hrun₁ : (resolveHeight 10).start w₁ with ⟨e | resolved₁, w₁'⟩
  · rw [hrun₁] at hdecisions₁
    cases hdecisions₁
  rcases hrun₂ : (resolveHeight 10).start w₂ with ⟨e | resolved₂, w₂'⟩
  · rw [hrun₂] at hdecisions₂
    cases hdecisions₂
  rw [hrun₁] at hdecisions₁
  rw [hrun₂] at hdecisions₂
  exact ⟨resolved₁, w₁', resolved₂, w₂', rfl, rfl, Option.some.inj hdecisions₁,
    Option.some.inj hdecisions₂,
    more_votes_unapprove_nothing hkeyed₁ hkeyed₂ hmore hroom hrun₁ hrun₂⟩

end Finality
