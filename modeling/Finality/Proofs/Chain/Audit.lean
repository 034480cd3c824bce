import Finality.Proofs.Chain.Votes

/-!
# Decisions can be audited

What was counted when a poll was decided can be counted again at any time: no vote on a decided poll
comes or goes while the decision stands, and the decision goes before any of the votes does.

* `Session.Orderly` — what holds of every run in which blocks are taken back only between blocks:
  votes are kept with their polls, and a poll that is decided is due (`Session.Orderly.finish_le`).
* `Poll.Accounted` — tally and status of a poll are what its votes come to; whether they are
  depends on the votes on this poll alone.
* `Session.Audited` — the invariant: every decided poll is accounted for.
* `resolved_polls_auditable` — the result for all runs.
-/

namespace Finality

variable {S L : Type}

/-! ## Orderly runs -/

namespace Session

/-- Votes are kept with their polls.  A poll can seem to be created at height zero only in the block
above the greatest height, which can be neither applied nor taken back. -/
structure Orderly (log : List Exchange) (height : Height) (s : MemoryStore) : Prop where
  /-- Votes are kept. -/
  kept : VotesKept log height s
  /-- A poll beyond the greatest height is undecided, and stays in its block. -/
  overTop : ∀ key p, s.polls.find? key = some p → p.createdHeight = 0 →
    p.status = .pending ∧ height + 1 = 0 ∧ midBlock log = true

namespace Orderly

variable {log : List Exchange} {height : Height} {s : MemoryStore}

theorem empty (height : Height) : Orderly [] height .empty where
  kept := .empty height
  overTop _ _ h := by cases h

/-- A poll is undecided exactly as long as it is not due, if another block fits on the chain. -/
theorem pending_iff (hs : Orderly log height s) (hnext : height + 1 ≠ 0) {key : Hash} {p : Poll}
    (hp : s.polls.find? key = some p) : p.status = .pending ↔ height < p.finishHeight := by
  refine (hs.kept.onTime.polls hp).status fun hcreated => ?_
  exact hnext (hs.overTop key p hp hcreated).2.1

/-- **A poll that is decided is due.** -/
theorem finish_le (hs : Orderly log height s) {key : Hash} {p : Poll}
    (hp : s.polls.find? key = some p) (hdecided : p.status ≠ .pending) :
    p.finishHeight ≤ height := by
  have hcreated : p.createdHeight ≠ 0 := fun hcreated =>
    hdecided (hs.overTop key p hp hcreated).1
  rw [ne_eq, (hs.kept.onTime.polls hp).status hcreated] at hdecided
  exact UInt64.not_lt.1 hdecided

/-- After a call that has failed. -/
theorem error (hs : Orderly log height s) (c : Call) (e : NodeError) :
    Orderly (⟨c, .error e⟩ :: log) height s where
  kept := hs.kept.error c e
  overTop := by
    rw [midBlock_error]
    exact hs.overTop

/-- After a call that has succeeded. -/
theorem done [Ledger L] {f : Follower (World S L)} {c : Call} {reply : Reply}
    {v v' : World MemoryStore L} (hrefusal : c.refusal f = none)
    (hallowed : ∀ h, c = .popBlock h → midBlock log = false) (hs : Orderly log f.height v.store)
    (h : c.Effect f.params f.height v (.ok reply) v') :
    Orderly (⟨c, .ok reply⟩ :: log) (c.heightAfter f.height) v'.store := by
  refine ⟨hs.kept.done hrefusal hallowed h, ?_⟩
  cases h with
  | registered hpasses hledger =>
    intro key p hp hcreated
    rw [Table.find?_insert] at hp
    split at hp
    · cases hp
      exact ⟨rfl, hcreated, rfl⟩
    · obtain ⟨hpending, htop, -⟩ := hs.overTop key p hp hcreated
      exact ⟨hpending, htop, rfl⟩
  | accepted hheight hadmitted hledger =>
    intro key p hp hcreated
    obtain ⟨hpending, htop, -⟩ := hs.overTop key p hp hcreated
    exact ⟨hpending, htop, rfl⟩
  | rejected hledger => exact hs.overTop
  | applied hdecide hledger =>
    obtain ⟨rfl, hne⟩ := Call.eq_of_refusal_applyBlock hrefusal
    intro key p hp hcreated
    obtain ⟨q, hq, hterms⟩ := MemoryStore.terms_of_settle hp
    rw [Poll.createdHeight_of_terms hterms] at hcreated
    exact absurd (hs.overTop key q hq hcreated).2.1 hne
  | popped hledger =>
    obtain ⟨rfl, -⟩ := Call.eq_of_refusal_popBlock hrefusal
    intro key p hp hcreated
    obtain ⟨q, hq, -, rfl⟩ := MemoryStore.find?_polls_takeBack.1 hp
    rw [Poll.createdHeight_undecide] at hcreated
    have hmid := (hs.overTop key q hq hcreated).2.2
    rw [hallowed _ rfl] at hmid
    cases hmid

end Orderly

end Session

/-! ## Accounts -/

/-- Tally and status of the poll are what its votes come to; the status of a poll decided by links
does not depend on its votes. -/
structure Poll.Accounted (s : MemoryStore) (p : Poll) : Prop where
  /-- The votes on it are counted. -/
  gathers : s.Gathers p p.tally
  /-- It is approved if they reach the quorum, and otherwise rejected. -/
  votes : p.isLinked = false → p.Quorate p.status p.tally

/-- Only the votes on the poll matter. -/
theorem Poll.Accounted.of_votesOn {s s' : MemoryStore} {p : Poll} (h : p.Accounted s)
    (hvotes : s'.votesOn p.key = s.votesOn p.key) : p.Accounted s' := by
  have hgathered : s'.gathered p = s.gathered p := by
    rw [MemoryStore.gathered, MemoryStore.gathered, hvotes]
  refine ⟨⟨?_, ?_⟩, h.votes⟩
  · rw [hgathered]
    exact h.gathers.tally
  · rw [hgathered]
    exact h.gathers.fits

namespace MemoryStore

/-- The votes on a poll are the entries under its key. -/
theorem votesOn_eq_values (s : MemoryStore) (key : Hash) :
    s.votesOn key = (s.votes.filter fun id _ => id.poll = key).values := rfl

theorem Keyed.mem_votesOn {s : MemoryStore} (hs : s.Keyed) {key : Hash} {x : Vote} :
    x ∈ s.votesOn key ↔ s.votes.find? x.id = some x ∧ x.poll = key := by
  rw [votesOn_eq_values, Table.mem_values_iff]
  constructor
  · rintro ⟨id, hid⟩
    rw [Table.find?_filter, Option.filter_eq_some_iff] at hid
    have hkey := hs.votes hid.1
    subst hkey
    exact ⟨hid.1, of_decide_eq_true hid.2⟩
  · rintro ⟨hx, hpoll⟩
    refine ⟨x.id, ?_⟩
    rw [Table.find?_filter, Option.filter_eq_some_iff]
    exact ⟨hx, decide_eq_true hpoll⟩

/-- A vote on another poll makes no difference. -/
theorem votesOn_insert {s : MemoryStore} {x : Vote} {key : Hash} (hother : x.poll ≠ key) :
    ({ s with votes := s.votes.insert x.id x } : MemoryStore).votesOn key = s.votesOn key := by
  rw [votesOn_eq_values, votesOn_eq_values]
  refine congrArg Table.values (Table.ext_find? fun id => ?_)
  rw [Table.find?_filter, Table.find?_filter, Table.find?_insert]
  split
  · rename_i hid
    subst hid
    have hpoll : x.id.poll ≠ key := hother
    cases s.votes.find? x.id <;> simp [Option.filter, hpoll]
  · rfl

/-- Taking back a block makes no difference to a poll that has no votes in it. -/
theorem Keyed.votesOn_takeBack {s : MemoryStore} (hs : s.Keyed) {height : Height} {key : Hash}
    (hnone : ∀ x ∈ s.votesOn key, x.height ≠ height) :
    (s.takeBack height).votesOn key = s.votesOn key := by
  rw [votesOn_eq_values, votesOn_eq_values]
  refine congrArg Table.values (Table.ext_find? fun id => Option.ext fun x => ?_)
  rw [Table.find?_filter, Table.find?_filter, Option.filter_eq_some_iff, Option.filter_eq_some_iff,
    find?_votes_takeBack]
  refine and_congr_left fun hpoll => and_iff_left_of_imp fun hx => ?_
  have hid := hs.votes hx
  subst hid
  exact hnone x (hs.mem_votesOn.2 ⟨hx, of_decide_eq_true hpoll⟩)

end MemoryStore

/-- A poll is still decided once the decisions of a height are undone only if it was decided at
another height. -/
theorem Poll.eq_of_undecide {height : Height} {p : Poll}
    (h : (p.undecide height).status ≠ .pending) :
    p.undecide height = p ∧ p.status ≠ .pending ∧ p.finishHeight ≠ height := by
  unfold undecide at h ⊢
  split
  · rename_i hdecided
    rw [if_pos hdecided] at h
    exact absurd rfl h
  · rename_i hnot
    rw [if_neg hnot] at h
    refine ⟨rfl, h, fun hfinish => hnot ⟨hfinish, ?_⟩⟩
    cases hstatus : p.status with
    | pending => exact absurd hstatus h
    | approved => rfl
    | rejected => rfl

/-! ## The invariant -/

namespace Session

/-- Every decided poll is accounted for. -/
structure Audited (log : List Exchange) (height : Height) (s : MemoryStore) : Prop where
  /-- The run is orderly. -/
  orderly : Orderly log height s
  /-- Decided polls are accounted for. -/
  accounted : ∀ key p, s.polls.find? key = some p → p.status ≠ .pending → p.Accounted s

namespace Audited

variable {log : List Exchange} {height : Height} {s : MemoryStore}

theorem empty (height : Height) : Audited [] height .empty where
  orderly := .empty height
  accounted _ _ h := by cases h

/-- A new vote is on a poll that is undecided. -/
theorem accounted_insertVote (hs : Audited log height s) {x : Vote} (hadmitted : x.Admitted s)
    {key : Hash} {p : Poll} (hp : s.polls.find? key = some p) (hdecided : p.status ≠ .pending) :
    p.Accounted { s with votes := s.votes.insert x.id x } := by
  refine (hs.accounted key p hp hdecided).of_votesOn (MemoryStore.votesOn_insert fun hpoll => ?_)
  obtain ⟨q, hq, hrefusal, -⟩ := hadmitted.poll
  have hkey := hs.orderly.kept.onTime.keyed.polls hp
  rw [hpoll, hkey, hp] at hq
  cases hq
  exact hdecided (Poll.refusal_eq_none_iff.1 hrefusal).1

/-- Polls decided by a block are accounted for, and the others as before. -/
theorem accounted_settle (hs : Audited log height s) {h : Height} {outcomes : Outcomes}
    (hdecide : outcomes.Decide h s) {key : Hash} {p : Poll}
    (hp : (s.settle outcomes).polls.find? key = some p) (hdecided : p.status ≠ .pending) :
    p.Accounted (s.settle outcomes) := by
  rcases MemoryStore.find?_settle.1 hp with ⟨q, o, hq, ho, rfl⟩ | ⟨hq, -⟩
  · have hwarrants := hdecide.warrants hq ho
    exact ⟨⟨hwarrants.gathers.tally, hwarrants.gathers.fits⟩, hwarrants.votes⟩
  · exact (hs.accounted key p hq hdecided).of_votesOn rfl

/-- Polls that are decided below the last block lose no votes with it. -/
theorem accounted_takeBack (hs : Audited log height s) {key : Hash} {p : Poll}
    (hp : (s.takeBack height).polls.find? key = some p) (hdecided : p.status ≠ .pending) :
    p.Accounted (s.takeBack height) := by
  obtain ⟨q, hq, -, rfl⟩ := MemoryStore.find?_polls_takeBack.1 hp
  obtain ⟨hsame, hdecided, hother⟩ := Poll.eq_of_undecide hdecided
  rw [hsame]
  have hkeyed := hs.orderly.kept.onTime.keyed
  refine (hs.accounted key q hq hdecided).of_votesOn
    (hkeyed.votesOn_takeBack fun x hx hheight => ?_)
  obtain ⟨hfind, hpoll⟩ := hkeyed.mem_votesOn.1 hx
  obtain ⟨q', hq', hfits⟩ := hs.orderly.kept.fits x.id x hfind
  rw [hpoll, hkeyed.polls hq, hq] at hq'
  cases hq'
  -- The vote came before its poll's finish height, which is below the block taken back.
  have hfinish := hs.orderly.finish_le hq hdecided
  have hcast := hfits.finish
  rw [hheight] at hcast
  exact UInt64.lt_irrefl _ (UInt64.lt_of_lt_of_le hcast hfinish)

/-- What a call that succeeds makes of the invariant. -/
theorem done [Ledger L] {f : Follower (World S L)} {c : Call} {reply : Reply}
    {v v' : World MemoryStore L} (hrefusal : c.refusal f = none)
    (hallowed : ∀ h, c = .popBlock h → midBlock log = false) (hs : Audited log f.height v.store)
    (h : c.Effect f.params f.height v (.ok reply) v') :
    Audited (⟨c, .ok reply⟩ :: log) (c.heightAfter f.height) v'.store := by
  refine ⟨hs.orderly.done hrefusal hallowed h, ?_⟩
  cases h with
  | registered hpasses hledger =>
    intro key p hp hdecided
    rw [Table.find?_insert] at hp
    split at hp
    · cases hp
      exact absurd rfl hdecided
    · exact (hs.accounted key p hp hdecided).of_votesOn rfl
  | accepted hheight hadmitted hledger =>
    exact fun key p hp hdecided => hs.accounted_insertVote hadmitted hp hdecided
  | rejected hledger => exact hs.accounted
  | applied hdecide hledger =>
    exact fun key p hp hdecided => hs.accounted_settle hdecide hp hdecided
  | popped hledger =>
    obtain ⟨rfl, -⟩ := Call.eq_of_refusal_popBlock hrefusal
    exact fun key p hp hdecided => hs.accounted_takeBack hp hdecided

/-- **Every step keeps the invariant**, if no block is taken back amid another. -/
theorem step [PollStore S] [VoteStore S] [FaithfulStore S] [Ledger L]
    (hsafe : ¬ FaithfulStore.fallible S) {s : Session (World S L)}
    (hs : Audited s.log s.follower.height s.follower.world.view.store) {st : Step L}
    (hallowed : s.PopsBetweenBlocks st) :
    Audited (s.step st).log (s.step st).follower.height
      (s.step st).follower.world.view.store := by
  refine step_keeps hsafe hs.orderly.kept.onTime.keyed hs st
    (fun c e _ _ => ⟨hs.orderly.error c e, hs.accounted⟩) ?_
  rintro c reply v' rfl hrefusal h
  exact hs.done hrefusal hallowed.midBlock h

end Audited

end Session

/-! ## Runs -/

/-- Where every weight is one, weights come to their number. -/
theorem totalWeight_of_ones {votes : List Vote} (h : ∀ x ∈ votes, x.weight = 1) :
    totalWeight (votes.map Vote.weight) = votes.length := by
  induction votes with
  | nil => rfl
  | cons x votes ih =>
    obtain ⟨hx, hvotes⟩ := List.forall_mem_cons.1 h
    have htail := ih hvotes
    have hcons : totalWeight ((x :: votes).map Vote.weight)
        = x.weight.toNat + totalWeight (votes.map Vote.weight) := rfl
    rw [hcons, htail, hx, List.length_cons, Nat.add_comm]
    rfl

/-- Where balances are not weighed, the weights of the votes come to their number. -/
theorem Session.VotesKept.totalWeight_votesOn {log : List Exchange} {height : Height}
    {s : MemoryStore} (hs : VotesKept log height s) {key : Hash} {p : Poll}
    (hp : s.polls.find? key = some p) (hweighted : p.model.isWeighted = false) :
    totalWeight ((s.votesOn key).map Vote.weight) = (s.votesOn key).length := by
  refine totalWeight_of_ones fun x hx => ?_
  obtain ⟨hfind, hpoll⟩ := hs.onTime.keyed.mem_votesOn.1 hx
  obtain ⟨q, hq, hfits⟩ := hs.fits x.id x hfind
  rw [hpoll, hp] at hq
  cases hq
  exact hfits.weight.2 hweighted

/-- What the engine answers when it is asked for the tally of a poll, if no sum is too great. -/
theorem start_tally [Ledger L] (v : World MemoryStore L) {key : Hash}
    (hfits : totalWeight ((v.store.votesOn key).map Vote.weight) < UInt64.size) :
    (tally key : Action (World MemoryStore L) EngineError Amount).start v =
      (.ok (UInt64.ofNat (totalWeight ((v.store.votesOn key).map Vote.weight))), v) := by
  have hvotes : (inStore (VoteStore.votesOn key) :
      Action (World MemoryStore L) EngineError (List Vote)).start v
        = (.ok (v.store.votesOn key), v) := rfl
  have hsum := sumWeights?_eq_some_iff.2 ⟨hfits, rfl⟩
  rw [tally, Action.start_bind, hvotes]
  dsimp only
  rw [sumVotes, hsum]
  rfl

/-- **Resolved polls stay auditable.**  In every run that starts from an empty store, over a store
that does not fail and whatever the ledger does, in which blocks are taken back only between
blocks, every decided poll has the tally that its votes come to now, and is approved exactly if
that reaches its quorum, unless it is decided by links.  Where balances are not weighed the votes
come to their number; that it can be written with 64 bits is left to the machine, which could not
hold so many votes. -/
theorem resolved_polls_auditable [Ledger L] (f : Follower (World MemoryStore L))
    (hempty : f.world.store = .empty) (steps : List (Step L))
    (hsteps : Session.Permits Session.PopsBetweenBlocks (.start f) steps) :
    let world := ((Session.start f).run steps).follower.world
    ∀ p ∈ world.store.polls.values, p.status ≠ .pending →
      let votes := world.store.votesOn p.key
      let total := totalWeight (votes.map Vote.weight)
      (p.model.isWeighted = false → total = votes.length) ∧
      ((p.model.isWeighted = false → votes.length < UInt64.size) →
        p.tally.toNat = total ∧
        (tally p.key : Action _ EngineError Amount).start world = (.ok p.tally, world)) ∧
      (p.model ≠ .transactionApproval →
        ∃ quorum, p.quorum = some quorum ∧ (p.status = .approved ↔ quorum ≤ p.tally)) := by
  intro world p hp hdecided votes total
  have haudited : Session.Audited ((Session.start f).run steps).log
      ((Session.start f).run steps).follower.height world.store :=
    Session.run_keeps .empty (fun s st hs hst => hs.step (fun h => h) hst) hempty hsteps
  obtain ⟨key, hkey⟩ := Table.mem_values_iff.1 hp
  have hfind : world.store.polls.find? p.key = some p := by
    rwa [haudited.orderly.kept.onTime.keyed.polls hkey]
  have haccounted := haudited.accounted p.key p hfind hdecided
  have hones : p.model.isWeighted = false → total = votes.length :=
    haudited.orderly.kept.totalWeight_votesOn hfind
  have hgathered : world.store.gathered p = total := by
    unfold MemoryStore.gathered
    cases hweighted : p.model.isWeighted with
    | true => rfl
    | false => exact (hones hweighted).symm
  have htally : p.tally = UInt64.ofNat total := by
    rw [← hgathered]
    exact haccounted.gathers.tally
  refine ⟨hones, fun hfew => ?_, fun hmodel => ?_⟩
  · have hfits : total < UInt64.size := by
      cases hweighted : p.model.isWeighted with
      | true =>
        rw [← hgathered]
        exact haccounted.gathers.fits hweighted
      | false =>
        rw [hones hweighted]
        exact hfew hweighted
    rw [htally]
    exact ⟨UInt64.toNat_ofNat_of_lt hfits, start_tally world hfits⟩
  · exact (haccounted.votes (decide_eq_false hmodel)).approved_iff

/-- A poll with one vote and one that links to it are decided, undecided and decided once more. -/
theorem resolved_polls_auditable_again :
    let f : Follower (World MemoryStore SimulatedLedger) :=
      .start ⟨.empty, (SimulatedLedger.releasing .zero).defer .ones ⟨⟨1⟩, ⟨2⟩, .native, 5⟩⟩
        .standard 0
    let steps : List (Step SimulatedLedger) := [.call (.register (.single .zero 2)),
      .call (.register (.linking .ones [.zero] 2)), .call (.castVote .zero ⟨7⟩),
      .call (.applyBlock 1), .call (.applyBlock 2), .call (.popBlock 2), .call (.applyBlock 2)]
    let store := ((Session.start f).run steps).follower.world.store
    f.world.store = .empty ∧ Session.Permits Session.PopsBetweenBlocks (.start f) steps ∧
    store.polls.values.map (fun p => (p.key, p.status)) =
      [(.zero, .approved), (.ones, .approved)] ∧
    ∀ p ∈ store.polls.values, p.status ≠ .pending →
      p.tally.toNat = totalWeight ((store.votesOn p.key).map Vote.weight) := by
  refine ⟨rfl, by decide +kernel, by decide +kernel, fun p hp hdecided =>
    ((resolved_polls_auditable _ rfl _ (by decide +kernel) p hp hdecided).2.1 fun _ => ?_).1⟩
  clear hdecided
  revert p
  decide +kernel

end Finality
