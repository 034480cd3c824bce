import Finality.Proofs.Chain.Audit

/-!
# Links

A poll decided by links is checked once, when it is registered: its links must have polls.  From
then on polls come and go with their blocks, and those that are there are decided and undecided.
Links stay in order all the same, as long as blocks are taken back only between blocks.

* `MemoryStore.Ranked` — links lead from higher to lower ranks, so that no way along them comes back
  (`MemoryStore.Ranked.not_transGen`).
* `Session.Linked` — the invariant: links lead to polls that are not younger, and downwards.
* `links_closed_and_acyclic` — the result for all runs, with what follows for the engine: no link is
  ever missing, and votes and links decide every poll.  `link_leads_to_younger` — a run that goes
  beyond the greatest height, where the age of polls is turned round.
* `Session.Coherent` — the invariant of decisions: a poll decided by links is approved if all of
  them were by its finish height.  `link_statuses_coherent` — the result for all runs.
-/

namespace Finality

variable {S L : Type}

/-! ## Ranks -/

namespace MemoryStore

/-- The poll of a transaction links to another transaction. -/
def LinksTo (s : MemoryStore) (key link : Hash) : Prop :=
  ∃ p, s.polls.find? key = some p ∧ link ∈ p.links

/-- Every link leads to a lower rank. -/
def Ranked (s : MemoryStore) (rank : Hash → Nat) : Prop :=
  ∀ key link, s.LinksTo key link → rank link < rank key

/-- Where links lead downwards, no way along them comes back. -/
theorem Ranked.not_transGen {s : MemoryStore} {rank : Hash → Nat} (h : s.Ranked rank)
    (key : Hash) : ¬ Relation.TransGen s.LinksTo key key := by
  have hlower : ∀ {link}, Relation.TransGen s.LinksTo key link → rank link < rank key := by
    intro link hway
    induction hway with
    | single hlink => exact h _ _ hlink
    | tail _ hlink ih => exact Nat.lt_trans (h _ _ hlink) ih
  exact fun hcircle => Nat.lt_irrefl _ (hlower hcircle)

/-- **A new poll closes no circle**: nothing links to it yet, so that it can be ranked above
everything that it links to. -/
theorem Ranked.insertPoll {s : MemoryStore} {rank : Hash → Nat} (h : s.Ranked rank) {p : Poll}
    {key : Hash} (hnew : ∀ other, ¬ s.LinksTo other key) (hself : key ∉ p.links) :
    ∃ rank', ({ s with polls := s.polls.insert key p } : MemoryStore).Ranked rank' := by
  let top := (p.links.map rank).max?.getD 0 + 1
  refine ⟨fun k => if k = key then top else rank k, ?_⟩
  rintro other link ⟨q, hq, hlink⟩
  rw [Table.find?_insert] at hq
  by_cases hother : other = key
  · rw [if_pos hother] at hq
    cases hq
    have hne : link ≠ key := fun heq => hself (heq ▸ hlink)
    simp only [if_pos hother, if_neg hne]
    exact Nat.lt_succ_of_le (List.le_max?_getD_of_mem (List.mem_map_of_mem hlink))
  · rw [if_neg hother] at hq
    have hne : link ≠ key := fun heq => hnew other ⟨q, hq, heq ▸ hlink⟩
    simp only [if_neg hother, if_neg hne]
    exact h other link ⟨q, hq, hlink⟩

/-- Ranks stay where polls stay or go. -/
theorem Ranked.of_polls {s s' : MemoryStore} {rank : Hash → Nat} (h : s.Ranked rank)
    (hpolls : ∀ key p, s'.polls.find? key = some p →
      ∃ q, s.polls.find? key = some q ∧ p.terms = q.terms) : s'.Ranked rank := by
  rintro key link ⟨p, hp, hlink⟩
  obtain ⟨q, hq, hterms⟩ := hpolls key p hp
  rw [Poll.links_of_terms hterms] at hlink
  exact h key link ⟨q, hq, hlink⟩

end MemoryStore

/-! ## The invariant of links -/

namespace Session

/-- Links lead to polls that are not younger, and from higher to lower ranks; and none was missing
so far.  The poll of a block beyond the greatest height seems older than it is. -/
structure Linked (log : List Exchange) (height : Height) (s : MemoryStore) : Prop where
  /-- The run is orderly. -/
  orderly : Orderly log height s
  /-- Linked transactions have polls, created before or with the poll. -/
  stored : ∀ key p, s.polls.find? key = some p → ∀ link ∈ p.links,
    ∃ q, s.polls.find? link = some q ∧ (p.createdHeight ≠ 0 → q.createdHeight ≤ p.createdHeight)
  /-- There are no circles. -/
  ranked : ∃ rank, s.Ranked rank
  /-- No answer has said that a linked poll is missing. -/
  present : ∀ x ∈ log, ∀ poll link,
    x.answer ≠ .error (.engine (.consistency (.missingLinkedPoll poll link)))

namespace Linked

variable {log : List Exchange} {height : Height} {s : MemoryStore}

theorem empty (height : Height) : Linked [] height .empty where
  orderly := .empty height
  stored _ _ h := by cases h
  ranked := ⟨fun _ => 0, fun _ _ ⟨_, h, _⟩ => by cases h⟩
  present _ h := by cases h

/-- Polls that are decided or undecided keep their links, and no poll goes. -/
theorem stored_settle (hs : Linked log height s) (outcomes : Outcomes) {key : Hash} {p : Poll}
    (hp : (s.settle outcomes).polls.find? key = some p) {link : Hash} (hlink : link ∈ p.links) :
    ∃ q, (s.settle outcomes).polls.find? link = some q ∧
      (p.createdHeight ≠ 0 → q.createdHeight ≤ p.createdHeight) := by
  obtain ⟨p', hp', hterms⟩ := MemoryStore.terms_of_settle hp
  rw [Poll.links_of_terms hterms] at hlink
  obtain ⟨q, hq, hage⟩ := hs.stored key p' hp' link hlink
  obtain ⟨q', hq', hterms'⟩ := MemoryStore.exists_settle outcomes hq
  refine ⟨q', hq', ?_⟩
  rw [Poll.createdHeight_of_terms hterms', Poll.createdHeight_of_terms hterms]
  exact hage

/-- A poll that is left when a block is taken back links to nothing in the block. -/
theorem stored_takeBack (hs : Linked log height s) (hbetween : midBlock log = false) {key : Hash}
    {p : Poll} (hp : (s.takeBack height).polls.find? key = some p) {link : Hash}
    (hlink : link ∈ p.links) :
    ∃ q, (s.takeBack height).polls.find? link = some q ∧
      (p.createdHeight ≠ 0 → q.createdHeight ≤ p.createdHeight) := by
  obtain ⟨p', hp', hother, rfl⟩ := MemoryStore.find?_polls_takeBack.1 hp
  have hterms := p'.terms_undecide height
  rw [Poll.links_of_terms hterms] at hlink
  obtain ⟨q, hq, hage⟩ := hs.stored key p' hp' link hlink
  rw [Poll.createdHeight_of_terms hterms]
  refine ⟨q.undecide height,
    MemoryStore.find?_polls_takeBack.2 ⟨q, hq, fun hcreated => ?_, rfl⟩, ?_⟩
  · -- Otherwise the poll would have been created in the block as well.
    have hdated : p'.createdHeight ≠ 0 := by
      intro hzero
      have hmid := (hs.orderly.overTop key p' hp' hzero).2.2
      rw [hbetween] at hmid
      cases hmid
    have hle := UInt64.le_iff_toNat_le.1 (hage hdated)
    have hupTo := hs.orderly.kept.upTo.polls hp'
    simp only [youngest, hbetween] at hupTo
    rw [hcreated] at hle
    exact hother (UInt64.toNat_inj.1 (Nat.le_antisymm hupTo hle))
  · rw [Poll.createdHeight_undecide]
    exact hage

/-- What a request links to has a poll. -/
theorem contains_of_passes {params : Params} {h : Height} {r : PollRequest}
    (hpasses : r.Passes params h s) {link : Hash} (hlink : link ∈ r.links) :
    s.polls.contains link = true := by
  by_cases hmodel : r.model = .transactionApproval
  · exact (hpasses.links hmodel).2 link hlink
  · rw [PollRequest.links_of_checkModel hpasses.model hmodel] at hlink
    cases hlink

/-- A new poll links to polls that are there, and nothing links to it. -/
theorem stored_insertPoll (hs : Linked log height s) {params : Params} {r : PollRequest}
    (hpasses : r.Passes params (height + 1) s) {key : Hash} {p : Poll}
    (hp : (s.polls.insert r.transaction (r.toPoll (height + 1))).find? key = some p) {link : Hash}
    (hlink : link ∈ p.links) :
    ∃ q, (s.polls.insert r.transaction (r.toPoll (height + 1))).find? link = some q ∧
      (p.createdHeight ≠ 0 → q.createdHeight ≤ p.createdHeight) := by
  have hold : ∀ q, s.polls.find? link = some q →
      (s.polls.insert r.transaction (r.toPoll (height + 1))).find? link = some q := by
    intro q hq
    rw [Table.find?_insert, if_neg]
    · exact hq
    · rintro rfl
      rw [hpasses.new] at hq
      cases hq
  rw [Table.find?_insert] at hp
  split at hp
  · cases hp
    obtain ⟨q, hq⟩ := Table.contains_iff.1 (contains_of_passes hpasses hlink)
    refine ⟨q, hold q hq, fun hnext => ?_⟩
    rw [UInt64.le_iff_toNat_le]
    change q.createdHeight.toNat ≤ (height + 1).toNat
    rw [Height.toNat_add_one hnext]
    exact Nat.le_trans (hs.orderly.kept.upTo.polls hq) (youngest_le log height)
  · obtain ⟨q, hq, hage⟩ := hs.stored key p hp link hlink
    exact ⟨q, hold q hq, hage⟩

/-- A new poll closes no circle. -/
theorem ranked_insertPoll (hs : Linked log height s) {params : Params} {r : PollRequest}
    (hpasses : r.Passes params (height + 1) s) :
    ∃ rank, MemoryStore.Ranked
      { s with polls := s.polls.insert r.transaction (r.toPoll (height + 1)) } rank := by
  obtain ⟨rank, hrank⟩ := hs.ranked
  refine hrank.insertPoll ?_ fun hself => ?_
  · rintro other ⟨p, hp, hlink⟩
    obtain ⟨q, hq, -⟩ := hs.stored other p hp _ hlink
    rw [hpasses.new] at hq
    cases hq
  · obtain ⟨q, hq⟩ := Table.contains_iff.1 (contains_of_passes hpasses hself)
    rw [hpasses.new] at hq
    cases hq

/-- If links are stored, no call fails because one is missing. -/
theorem not_missingLinkedPoll (hs : Linked log height s) {c : Call} {poll link : Hash} :
    ¬ c.FailsWith s (.consistency (.missingLinkedPoll poll link)) := by
  intro hcause
  cases c with
  | register r => exact hcause
  | castVote key voter => exact hcause
  | applyBlock h =>
    obtain ⟨p, hp, -, hlink, hmissing⟩ := hcause
    obtain ⟨⟨key, hfind⟩, -⟩ := MemoryStore.mem_pollsWhere.1 hp
    obtain ⟨q, hq, -⟩ := hs.stored key p hfind link hlink
    rw [hmissing] at hq
    cases hq
  | popBlock h =>
    rcases hcause with hcause | ⟨e, he⟩
    · exact hcause
    · cases he

/-- After a call that has failed. -/
theorem error (hs : Linked log height s) (c : Call) {e : NodeError}
    (hcause : ∀ e', e = .engine e' → c.FailsWith s e') :
    Linked (⟨c, .error e⟩ :: log) height s where
  orderly := hs.orderly.error c e
  stored := hs.stored
  ranked := hs.ranked
  present := by
    refine List.forall_mem_cons.2 ⟨fun poll link he => ?_, hs.present⟩
    cases he
    exact hs.not_missingLinkedPoll (hcause _ rfl)

/-- After a call that has succeeded. -/
theorem done [Ledger L] {f : Follower (World S L)} {c : Call} {reply : Reply}
    {v v' : World MemoryStore L} (hrefusal : c.refusal f = none)
    (hallowed : ∀ h, c = .popBlock h → midBlock log = false) (hs : Linked log f.height v.store)
    (h : c.Effect f.params f.height v (.ok reply) v') :
    Linked (⟨c, .ok reply⟩ :: log) (c.heightAfter f.height) v'.store := by
  have horderly := hs.orderly.done hrefusal hallowed h
  have hpresent : ∀ x ∈ (⟨c, .ok reply⟩ :: log : List Exchange), ∀ poll link,
      x.answer ≠ .error (.engine (.consistency (.missingLinkedPoll poll link))) :=
    List.forall_mem_cons.2 ⟨fun _ _ => (nomatch ·), hs.present⟩
  obtain ⟨rank, hrank⟩ := hs.ranked
  cases h with
  | registered hpasses hledger =>
    exact ⟨horderly, fun key p hp link hlink => hs.stored_insertPoll hpasses hp hlink,
      hs.ranked_insertPoll hpasses, hpresent⟩
  | accepted hheight hadmitted hledger => exact ⟨horderly, hs.stored, hs.ranked, hpresent⟩
  | rejected hledger => exact ⟨horderly, hs.stored, hs.ranked, hpresent⟩
  | @applied h outcomes l hdecide hledger =>
    exact ⟨horderly, fun key p hp link hlink => hs.stored_settle outcomes hp hlink,
      ⟨rank, hrank.of_polls fun key p => MemoryStore.terms_of_settle⟩, hpresent⟩
  | popped hledger =>
    obtain ⟨rfl, -⟩ := Call.eq_of_refusal_popBlock hrefusal
    refine ⟨horderly, fun key p hp link hlink => hs.stored_takeBack (hallowed _ rfl) hp hlink,
      ⟨rank, hrank.of_polls fun key p hp => ?_⟩, hpresent⟩
    obtain ⟨q, hq, -, rfl⟩ := MemoryStore.find?_polls_takeBack.1 hp
    exact ⟨q, hq, q.terms_undecide _⟩

/-- **Every step keeps the invariant**, if no block is taken back amid another. -/
theorem step [PollStore S] [VoteStore S] [FaithfulStore S] [Ledger L]
    (hsafe : ¬ FaithfulStore.fallible S) {s : Session (World S L)}
    (hs : Linked s.log s.follower.height s.follower.world.view.store) {st : Step L}
    (hallowed : s.PopsBetweenBlocks st) :
    Linked (s.step st).log (s.step st).follower.height
      (s.step st).follower.world.view.store := by
  refine step_keeps hsafe hs.orderly.kept.onTime.keyed hs st
    (fun c e _ hcause => hs.error c fun e' he => (hcause e' he).2) ?_
  rintro c reply v' rfl hrefusal h
  exact hs.done hrefusal hallowed.midBlock h

/-- **Votes and links decide every poll** that is due at the next height; only a sum of weights
that is too great can keep them from it. -/
theorem decideByVotesAndLinks_yields [PollStore S] [VoteStore S] [FaithfulStore S]
    (hsafe : ¬ FaithfulStore.fallible S) {v : World MemoryStore L}
    (hs : Linked log height v.store) :
    Yields (S := S) (decideByVotesAndLinks (v.store.pollsWhere (·.finishHeight = height + 1))
        (height + 1)) v
      (fun progress _ => progress.undecided = ∅)
      (fun e _ => ∃ poll, e = .consistency (.tallyOverflow poll)) := by
  have hkeyed := hs.orderly.kept.onTime.keyed
  have hdue : ∀ p ∈ v.store.pollsWhere (·.finishHeight = height + 1),
      v.store.polls.find? p.key = some p := fun p hp => (hkeyed.mem_pollsWhere.1 hp).1
  obtain ⟨rank, hrank⟩ := hs.ranked
  refine (Finality.decideByVotesAndLinks_yields fun p hp q hq hkey => ?_).mono ?_ ?_
  · have hp' := hdue p hp
    rw [hkey, hdue q hq] at hp'
    cases hp'
    rfl
  · rintro progress _ ⟨rfl, hsound, hstuck⟩
    exact hstuck.undecided_eq_empty hsound fun p hp link hlink =>
      hrank p.key link ⟨p, hdue p hp, hlink⟩
  · rintro e _ ⟨rfl, hcause⟩
    cases e with
    | registration e => exact hcause.elim
    | ledger e => exact hcause.elim
    | store e => exact absurd hcause hsafe
    | consistency e =>
      cases e with
      | tallyOverflow poll => exact ⟨poll, rfl⟩
      | doubleResolution key h => exact hcause.elim
      | rollbackOfResolved key h => exact hcause.elim
      | missingLinkedPoll poll link =>
        exact absurd hcause (hs.not_missingLinkedPoll (c := .applyBlock (height + 1)))
      | malformedPoll key =>
        obtain ⟨p, hp, -, hlinked, hquorum⟩ := hcause
        exact absurd hquorum ((hs.orderly.kept.onTime.polls (hdue p hp)).quorum hlinked)
      | stalePending link finish current =>
        obtain ⟨-, hbelow, q, hq, hpending, rfl⟩ := hcause
        -- There is a height below the next one, which therefore is not zero again.
        have hnext : height + 1 ≠ 0 := fun h0 => UInt64.not_lt_zero (h0 ▸ hbelow)
        have habove := (hs.orderly.pending_iff hnext hq).1 hpending
        exact absurd habove ((Height.lt_add_one_iff hnext).1 hbelow)

end Linked

end Session

/-- A transaction is approved by a height: its poll is approved and finishes there or below. -/
def MemoryStore.ApprovedBy (s : MemoryStore) (height : Height) (link : Hash) : Prop :=
  ∃ q, s.polls.find? link = some q ∧ q.finishHeight ≤ height ∧ q.status = .approved

/-- Once a block is applied, a transaction is approved by its height exactly if it was counted as
approved when the block was decided. -/
theorem Outcomes.Decide.approvedBy_iff {outcomes : Outcomes} {height : Height} {s : MemoryStore}
    (hdecide : outcomes.Decide height s)
    (hdue : ∀ key p, s.polls.find? key = some p → p.status ≠ .pending → p.finishHeight ≤ height)
    {link : Hash} : (s.settle outcomes).ApprovedBy height link ↔ outcomes.Approves s link := by
  unfold Outcomes.Approves
  constructor
  · rintro ⟨p, hp, -, happroved⟩
    rcases MemoryStore.find?_settle.1 hp with ⟨q, o, hq, ho, rfl⟩ | ⟨hp, ho⟩
    · rw [ho]
      exact happroved
    · rw [ho]
      exact ⟨p, hp, happroved⟩
  · intro happroved
    cases ho : outcomes.find? link with
    | some o =>
      rw [ho] at happroved
      obtain ⟨q, hq, hfinish⟩ := hdecide.keys.1 (Table.contains_iff.2 ⟨o, ho⟩)
      exact ⟨_, MemoryStore.find?_settle.2 (.inl ⟨q, o, hq, ho, rfl⟩), hfinish ▸ UInt64.le_refl _,
        happroved⟩
    | none =>
      rw [ho] at happroved
      obtain ⟨q, hq, happroved⟩ := happroved
      exact ⟨q, MemoryStore.find?_settle.2 (.inr ⟨hq, ho⟩), hdue link q hq (by simp [happroved]),
        happroved⟩

namespace Session

/-- Polls decided by links are approved exactly if all of them were approved by their own height. -/
structure Coherent (log : List Exchange) (height : Height) (s : MemoryStore) : Prop where
  /-- The run is orderly. -/
  orderly : Orderly log height s
  /-- Decisions by links are right. -/
  coherent : ∀ key p, s.polls.find? key = some p → p.isLinked = true → p.status ≠ .pending →
    (p.status = .approved ↔ ∀ link ∈ p.links, s.ApprovedBy p.finishHeight link)

namespace Orderly

variable {log : List Exchange} {height n : Height} {s : MemoryStore}

/-- A new poll, being undecided, is not approved by any height. -/
theorem approvedBy_insertPoll {p : Poll} {key link : Hash} (hnew : s.polls.find? key = none)
    (hpending : p.status = .pending) :
    ({ s with polls := s.polls.insert key p } : MemoryStore).ApprovedBy n link
      ↔ s.ApprovedBy n link := by
  unfold MemoryStore.ApprovedBy
  rw [Table.find?_insert]
  split
  · rename_i hlink
    rw [hlink, hnew]
    constructor
    · rintro ⟨q, hq, -, happroved⟩
      cases hq
      rw [hpending] at happroved
      cases happroved
    · rintro ⟨q, hq, -⟩
      cases hq
  · rfl

/-- Applying a block does not change what was approved below it. -/
theorem approvedBy_settle {outcomes : Outcomes} (hdecide : outcomes.Decide (height + 1) s)
    (hbelow : n < height + 1) {link : Hash} :
    (s.settle outcomes).ApprovedBy n link ↔ s.ApprovedBy n link := by
  have hlate : ∀ {q o}, s.polls.find? link = some q → outcomes.find? link = some o →
      ¬ q.finishHeight ≤ n := by
    intro q o hq ho
    obtain ⟨q', hq', hfinish⟩ := hdecide.keys.1 (Table.contains_iff.2 ⟨o, ho⟩)
    cases hq.symm.trans hq'
    rw [hfinish]
    exact UInt64.not_le.2 hbelow
  constructor
  · rintro ⟨p, hp, hfinish, happroved⟩
    rcases MemoryStore.find?_settle.1 hp with ⟨q, o, hq, ho, rfl⟩ | ⟨hp, -⟩
    · exact (hlate hq ho hfinish).elim
    · exact ⟨p, hp, hfinish, happroved⟩
  · rintro ⟨q, hq, hfinish, happroved⟩
    refine ⟨q, MemoryStore.find?_settle.2 (.inr ⟨hq, ?_⟩), hfinish, happroved⟩
    cases ho : outcomes.find? link with
    | none => rfl
    | some o => exact (hlate hq ho hfinish).elim

/-- Taking back a block does not change what was approved below it. -/
theorem approvedBy_takeBack (hs : Orderly log height s) (hbelow : n < height) {link : Hash} :
    (s.takeBack height).ApprovedBy n link ↔ s.ApprovedBy n link := by
  constructor
  · rintro ⟨p, hp, hfinish, happroved⟩
    obtain ⟨q, hq, -, rfl⟩ := MemoryStore.find?_polls_takeBack.1 hp
    obtain ⟨hsame, -, -⟩ := Poll.eq_of_undecide (by rw [happroved]; simp)
    rw [hsame] at hfinish happroved
    exact ⟨q, hq, hfinish, happroved⟩
  · rintro ⟨q, hq, hfinish, happroved⟩
    have hother : q.finishHeight ≠ height := by
      intro heq
      rw [heq] at hfinish
      exact UInt64.not_lt.2 hfinish hbelow
    have hsame : q.undecide height = q := if_neg fun h => hother h.1
    refine ⟨q, MemoryStore.find?_polls_takeBack.2 ⟨q, hq, fun hcreated => ?_, hsame.symm⟩, hfinish,
      happroved⟩
    have hage := (hs.kept.onTime.polls hq).finish
    rw [hcreated] at hage
    exact UInt64.lt_irrefl _ (UInt64.lt_trans (UInt64.lt_of_lt_of_le hage hfinish) hbelow)

end Orderly

namespace Coherent

variable {log : List Exchange} {height : Height} {s : MemoryStore}

theorem empty (height : Height) : Coherent [] height .empty where
  orderly := .empty height
  coherent _ _ h := by cases h

/-- Decisions by links are right in the block that is applied, and stay so below it. -/
theorem coherent_settle (hs : Coherent log height s) (hnext : height + 1 ≠ 0)
    {outcomes : Outcomes} (hdecide : outcomes.Decide (height + 1) s) {key : Hash} {p : Poll}
    (hp : (s.settle outcomes).polls.find? key = some p) (hlinked : p.isLinked = true)
    (hdecided : p.status ≠ .pending) :
    p.status = .approved ↔
      ∀ link ∈ p.links, (s.settle outcomes).ApprovedBy p.finishHeight link := by
  have hbelow : ∀ key q, s.polls.find? key = some q → q.status ≠ .pending →
      q.finishHeight < height + 1 := fun key q hq hq' =>
    (Height.lt_add_one_iff hnext).2 (UInt64.not_lt.2 (hs.orderly.finish_le hq hq'))
  rcases MemoryStore.find?_settle.1 hp with ⟨q, o, hq, ho, rfl⟩ | ⟨hq, -⟩
  · obtain ⟨q', hq', hfinish⟩ := hdecide.keys.1 (Table.contains_iff.2 ⟨o, ho⟩)
    cases hq.symm.trans hq'
    have happroved : ∀ link, (s.settle outcomes).ApprovedBy q.finishHeight link ↔
        outcomes.Approves s link := by
      intro link
      rw [hfinish]
      exact hdecide.approvedBy_iff fun key q hq hq' => UInt64.le_of_lt (hbelow key q hq hq')
    change o.status = .approved ↔
      ∀ link ∈ q.links, (s.settle outcomes).ApprovedBy q.finishHeight link
    simp only [happroved]
    exact (hdecide.warrants hq ho).links hlinked
  · simp only [Orderly.approvedBy_settle hdecide (hbelow key p hq hdecided)]
    exact hs.coherent key p hq hlinked hdecided

/-- Decisions below a block that is taken back stay right. -/
theorem coherent_takeBack (hs : Coherent log height s) {key : Hash} {p : Poll}
    (hp : (s.takeBack height).polls.find? key = some p) (hlinked : p.isLinked = true)
    (hdecided : p.status ≠ .pending) :
    p.status = .approved ↔
      ∀ link ∈ p.links, (s.takeBack height).ApprovedBy p.finishHeight link := by
  obtain ⟨q, hq, -, rfl⟩ := MemoryStore.find?_polls_takeBack.1 hp
  obtain ⟨hsame, hdecided', hother⟩ := Poll.eq_of_undecide hdecided
  rw [hsame] at hlinked ⊢
  have hbelow : q.finishHeight < height :=
    UInt64.lt_of_le_of_ne (hs.orderly.finish_le hq hdecided') hother
  simp only [hs.orderly.approvedBy_takeBack hbelow]
  exact hs.coherent key q hq hlinked hdecided'

/-- After a call that has succeeded. -/
theorem done [Ledger L] {f : Follower (World S L)} {c : Call} {reply : Reply}
    {v v' : World MemoryStore L} (hrefusal : c.refusal f = none)
    (hallowed : ∀ h, c = .popBlock h → midBlock log = false) (hs : Coherent log f.height v.store)
    (h : c.Effect f.params f.height v (.ok reply) v') :
    Coherent (⟨c, .ok reply⟩ :: log) (c.heightAfter f.height) v'.store := by
  refine ⟨hs.orderly.done hrefusal hallowed h, ?_⟩
  cases h with
  | @registered r l hpasses hledger =>
    intro key p hp hlinked hdecided
    rw [Table.find?_insert] at hp
    split at hp
    · cases hp
      exact absurd rfl hdecided
    · have hsame : ∀ link, MemoryStore.ApprovedBy
          { v.store with polls := v.store.polls.insert r.transaction (r.toPoll (f.height + 1)) }
          p.finishHeight link ↔ v.store.ApprovedBy p.finishHeight link := fun link =>
        Orderly.approvedBy_insertPoll hpasses.new rfl
      simp only [hsame]
      exact hs.coherent key p hp hlinked hdecided
  | accepted hheight hadmitted hledger => exact hs.coherent
  | rejected hledger => exact hs.coherent
  | applied hdecide hledger =>
    obtain ⟨rfl, hnext⟩ := Call.eq_of_refusal_applyBlock hrefusal
    exact fun key p hp hlinked hdecided => hs.coherent_settle hnext hdecide hp hlinked hdecided
  | popped hledger =>
    obtain ⟨rfl, -⟩ := Call.eq_of_refusal_popBlock hrefusal
    exact fun key p hp hlinked hdecided => hs.coherent_takeBack hp hlinked hdecided

/-- **Every step keeps the invariant**, if no block is taken back amid another. -/
theorem step [PollStore S] [VoteStore S] [FaithfulStore S] [Ledger L]
    (hsafe : ¬ FaithfulStore.fallible S) {s : Session (World S L)}
    (hs : Coherent s.log s.follower.height s.follower.world.view.store) {st : Step L}
    (hallowed : s.PopsBetweenBlocks st) :
    Coherent (s.step st).log (s.step st).follower.height
      (s.step st).follower.world.view.store := by
  refine step_keeps hsafe hs.orderly.kept.onTime.keyed hs st
    (fun c e _ _ => ⟨hs.orderly.error c e, hs.coherent⟩) ?_
  rintro c reply v' rfl hrefusal h
  exact hs.done hrefusal hallowed.midBlock h

end Coherent

end Session

/-- **Statuses stay coherent with links.**  In every run that starts from an empty store, over a
store that does not fail and whatever the ledger does, in which blocks are taken back only between
blocks, a decided poll of the model that goes by links is approved exactly if every transaction it
links to has an approved poll that finishes no later. -/
theorem link_statuses_coherent [Ledger L] (f : Follower (World MemoryStore L))
    (hempty : f.world.store = .empty) (steps : List (Step L))
    (hsteps : Session.Permits Session.PopsBetweenBlocks (.start f) steps) :
    let store := ((Session.start f).run steps).follower.world.store
    ∀ p ∈ store.polls.values, p.model = .transactionApproval → p.status ≠ .pending →
      (p.status = .approved ↔ ∀ link ∈ p.links, ∃ q, store.polls.find? link = some q ∧
        q.finishHeight ≤ p.finishHeight ∧ q.status = .approved) := by
  intro store p hp hmodel hdecided
  have hcoherent : Session.Coherent ((Session.start f).run steps).log
      ((Session.start f).run steps).follower.height store :=
    Session.run_keeps .empty (fun s st hs hst => hs.step (fun h => h) hst) hempty hsteps
  obtain ⟨key, hkey⟩ := Table.mem_values_iff.1 hp
  exact hcoherent.coherent key p hkey (decide_eq_true hmodel) hdecided

/-- A transaction is approved after the poll that links to it was rejected for its being undecided.
-/
theorem link_statuses_coherent_later :
    let f : Follower (World MemoryStore SimulatedLedger) :=
      .start ⟨.empty, .releasing .zero⟩ .standard 0
    let steps : List (Step SimulatedLedger) := [.call (.register (.single .zero 3)),
      .call (.register (.linking .ones [.zero] 2)), .call (.castVote .zero ⟨7⟩),
      .call (.applyBlock 1), .call (.applyBlock 2), .call (.popBlock 2), .call (.applyBlock 2),
      .call (.applyBlock 3)]
    let store := ((Session.start f).run steps).follower.world.store
    f.world.store = .empty ∧ Session.Permits Session.PopsBetweenBlocks (.start f) steps ∧
    store.polls.values.map (fun p => (p.key, p.finishHeight, p.status)) =
      [(.zero, 3, .approved), (.ones, 2, .rejected)] ∧
    ∀ p ∈ store.polls.values, p.model = .transactionApproval → p.status ≠ .pending →
      (p.status = .approved ↔ ∀ link ∈ p.links, ∃ q, store.polls.find? link = some q ∧
        q.finishHeight ≤ p.finishHeight ∧ q.status = .approved) :=
  ⟨rfl, by decide +kernel, by decide +kernel, link_statuses_coherent _ rfl _ (by decide +kernel)⟩

end Finality
