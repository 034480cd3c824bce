import Finality.Proofs.Engine.Fixpoint
import Finality.Proofs.Engine.Resolution
import Finality.Proofs.Ledger.Simulated

/-!
# What a successful resolution does

Resolving a height decides polls, releases transactions and writes a batch of statuses, in three
loops of which each goes over what the one before has found.  This file says what the three come to
in the store and in the ledger, and that they do nothing else.

* `Poll.DecidedAs` — a poll is decided as its votes call for, and otherwise left as it was.
* `World.Resolves` — the polls due at a height are decided, the approved ones released, and nothing
  else has changed.
* `Outcomes.Decide.decidedAs`, `Outcomes.Decide.mem_approved_iff` — the outcomes that are written
  decide the polls so, and approve those that the answer says.
* `resolution_decides_due_polls_only` — the result, over every faithful store, with the one reason
  for which a resolution reports an overflow.
-/

namespace Finality

variable {S : Type}

/-! ## Polls -/

/-- The poll `q` is the undecided poll `p` with the status and the tally that these votes call for.
A sum of weights is never cut off.  The number of votes is written with 64 bits, and that these
suffice is left to the machine, which could not hold more votes. -/
structure Poll.DecidedAs (p q : Poll) (votes : List Vote) : Prop where
  /-- It was undecided. -/
  pending : p.status = .pending
  /-- It is decided. -/
  resolved : q.status.isResolved = true
  /-- Nothing but its status and tally has changed. -/
  frame : q = { p with status := q.status, tally := q.tally }
  /-- Where balances are not weighed, the tally is the number of votes. -/
  counted : p.model.isWeighted = false → q.tally = UInt64.ofNat votes.length ∧
    (votes.length < UInt64.size → q.tally.toNat = votes.length)
  /-- Where they are, it is the sum of the weights. -/
  weighed : p.model.isWeighted = true → q.tally.toNat = totalWeight (votes.map Vote.weight)
  /-- Unless it is decided by links, it is approved exactly if the tally reaches its quorum. -/
  quorum : p.model ≠ .transactionApproval →
    ∃ quorum, p.quorum = some quorum ∧ (q.status = .approved ↔ quorum ≤ q.tally)

/-- A poll that is given its outcome is decided as its votes call for. -/
theorem Outcomes.Decide.decidedAs {outcomes : Outcomes} {height : Height} {s : MemoryStore}
    (hs : s.Keyed) (h : outcomes.Decide height s) {key : Hash} {p : Poll} {o : Outcome}
    (hp : s.polls.find? key = some p) (ho : outcomes.find? key = some o) :
    p.DecidedAs (p.resolve ⟨key, o.status, o.tally⟩) (s.votesOn key) := by
  obtain ⟨q, hq, hheight⟩ := h.keys.1 (Table.contains_iff.2 ⟨o, ho⟩)
  cases hp.symm.trans hq
  have hwarrants := h.warrants hp ho
  have htally := hwarrants.gathers.tally
  refine ⟨h.pending hp hheight, hwarrants.resolved, rfl, fun hcounted => ?_,
    fun hweighted => ?_, fun hmodel => (hwarrants.votes (decide_eq_false hmodel)).approved_iff⟩
  · rw [MemoryStore.gathered, hcounted, hs.polls hp] at htally
    refine ⟨htally, fun hfits => ?_⟩
    show o.tally.toNat = _
    rw [htally]
    exact UInt64.toNat_ofNat_of_lt hfits
  · have hfits := hwarrants.gathers.fits hweighted
    rw [MemoryStore.gathered, if_pos hweighted, hs.polls hp] at htally hfits
    show o.tally.toNat = _
    rw [htally]
    exact UInt64.toNat_ofNat_of_lt hfits

/-- Released are the transactions whose polls are answered as approved. -/
theorem Outcomes.Decide.mem_approved_iff {outcomes : Outcomes} {height : Height} {s : MemoryStore}
    (hs : s.Keyed) (h : outcomes.Decide height s) {t : Hash} :
    t ∈ outcomes.approved ↔
      ∃ r ∈ outcomes.resolved (s.pollsWhere (·.finishHeight = height)) height,
        r.key = t ∧ r.status = .approved := by
  rw [← h.mem_approvedKeys_settle hs, h.decidedAt_settle hs, h.resolved_eq hs, mem_approvedKeys]
  simp [ResolvedPoll.ofPoll]

/-! ## Worlds -/

/-- Resolving the height has led from `v` to `v'` with this answer: the polls due at the height are
decided, the approved ones are released at the tip, and nothing else has changed. -/
structure World.Resolves (height : Height) (v : World MemoryStore SimulatedLedger)
    (resolved : List ResolvedPoll) (v' : World MemoryStore SimulatedLedger) : Prop where
  /-- The polls due at the height are decided as their votes call for. -/
  due : ∀ {key p}, v.store.polls.find? key = some p → p.finishHeight = height →
    ∃ q, v'.store.polls.find? key = some q ∧ p.DecidedAs q (v.store.votesOn key)
  /-- Other polls are as they were, and no poll has come or gone. -/
  others : ∀ {key}, (∀ p, v.store.polls.find? key = some p → p.finishHeight ≠ height) →
    v'.store.polls.find? key = v.store.polls.find? key
  /-- Votes are as they were. -/
  votes : v'.store.votes = v.store.votes
  /-- The answer is in ascending order, so that no poll is in it twice. -/
  ascending : (resolved.map ResolvedPoll.key).Pairwise fun a b => compare a b = .lt
  /-- It lists the polls due at the height, as they are stored now. -/
  answers : ∀ r, r ∈ resolved ↔ ∃ q, v'.store.polls.find? r.key = some q ∧
    q.finishHeight = height ∧ r = .ofPoll height q
  /-- Of the ledger, nothing but releases has changed. -/
  frame : v'.ledger = { v.ledger with released := v'.ledger.released }
  /-- What is approved had not been released. -/
  unreleased : ∀ r ∈ resolved, r.status = .approved → v.ledger.isReleased r.key = false
  /-- Released, with their heights, are what was released before, and what is approved. -/
  released : ∀ t since, v'.ledger.released.find? t = some since ↔
    v.ledger.released.find? t = some since ∨
      since = v.ledger.tip.getD 0 ∧ ∃ r ∈ resolved, r.key = t ∧ r.status = .approved

/-- Writing outcomes and releasing what they approve resolves the height. -/
theorem Outcomes.Decide.resolves {outcomes : Outcomes} {height : Height}
    {v v' : World MemoryStore SimulatedLedger} (hs : v.store.Keyed)
    (h : outcomes.Decide height v.store) (hstore : v'.store = v.store.settle outcomes)
    (hrelease : (releaseAll outcomes.approved).start v.ledger = (.ok (), v'.ledger)) :
    v.Resolves height
      (outcomes.resolved (v.store.pollsWhere (·.finishHeight = height)) height) v' := by
  have hrecords := SimulatedLedger.records_of_releaseAll hrelease
  have hkeyed := hs.settle outcomes
  refine ⟨fun {key p} hp hheight => ?_, fun {key} hother => ?_, by rw [hstore]; rfl, ?_,
    fun r => ?_, hrecords.frame, fun r hr happroved => ?_, fun t since => ?_⟩
  · obtain ⟨o, ho⟩ := Table.contains_iff.1 (h.keys.2 ⟨p, hp, hheight⟩)
    refine ⟨_, ?_, h.decidedAs hs hp ho⟩
    rw [hstore]
    exact MemoryStore.find?_settle.2 (.inl ⟨p, o, hp, ho, rfl⟩)
  · have hnone : outcomes.find? key = none := by
      refine Table.contains_eq_false_iff.1 (Bool.eq_false_iff.2 fun hcontains => ?_)
      obtain ⟨p, hp, hheight⟩ := h.keys.1 hcontains
      exact hother p hp hheight
    rw [hstore, MemoryStore.settle, Table.find?_map, hnone]
    exact Option.map_id' ..
  · rw [h.resolved_eq hs, List.map_map]
    exact hkeyed.ascending_pollsWhere _
  · rw [h.resolved_eq hs, hstore, List.mem_map]
    constructor
    · rintro ⟨q, hq, rfl⟩
      obtain ⟨hfind, hheight⟩ := hkeyed.mem_pollsWhere.1 hq
      exact ⟨q, hfind, of_decide_eq_true hheight, rfl⟩
    · rintro ⟨q, hfind, hheight, rfl⟩
      exact ⟨q, hkeyed.mem_pollsWhere.2 ⟨hfind, decide_eq_true hheight⟩, rfl⟩
  · have hmem := (h.mem_approved_iff hs).2 ⟨r, hr, rfl, happroved⟩
    exact Table.contains_eq_false_iff.2 (hrecords.before rfl r.key hmem)
  · rw [hrecords.after, ← h.mem_approved_iff hs]
    by_cases hmem : t ∈ outcomes.approved
    · simp [hmem, hrecords.before rfl t hmem, eq_comm]
    · simp [hmem]

/-- Weights without a sum exceed what 64 bits hold. -/
theorem le_totalWeight_of_sumWeights? {weights : List Amount} (h : sumWeights? weights = none) :
    UInt64.size ≤ totalWeight weights := by
  refine Nat.le_of_not_lt fun hfits => ?_
  rw [sumWeights?_eq_some_iff.2 ⟨hfits, rfl⟩] at h
  cases h

/-- **What a successful resolution does, and nothing else.**  Over every store in which everything
stands under its own key, whatever the ledger is like: if resolving a height succeeds, the polls due
at it, all of them undecided until then, are decided as their votes call for and answered in
ascending order as they are stored now; what is approved, and had not been released before, is
released; and all other polls, votes and releases are as they were.  An overflow is reported only if
the weights of the votes on a poll that is due do not fit into 64 bits. -/
theorem resolution_decides_due_polls_only [PollStore S] [VoteStore S] [FaithfulStore S]
    (w : World S SimulatedLedger) (hs : w.view.store.Keyed) (height : Height) :
    (∀ resolved w', (resolveHeight height).start w = (.ok resolved, w') →
      w.view.Resolves height resolved w'.view) ∧
    ∀ key w',
      (resolveHeight height).start w = (.error (.consistency (.tallyOverflow key)), w') →
      ∃ p, w.view.store.polls.find? key = some p ∧ p.finishHeight = height ∧
        p.model.isWeighted = true ∧
        UInt64.size ≤ totalWeight ((w.view.store.votesOn key).map Vote.weight) := by
  have hyields := resolveHeight_yields (S := S) hs height
  constructor
  · intro resolved w' h
    obtain ⟨outcomes, hdecide, rfl, hstore, hrelease⟩ := hyields.of_ok h
    exact hdecide.resolves hs hstore hrelease
  · intro key w' h
    obtain ⟨-, ⟨p, hp, rfl, hweighted, hsum⟩, -⟩ := hyields.of_error h
    obtain ⟨hfind, hheight⟩ := hs.mem_pollsWhere.1 hp
    exact ⟨p, hfind, of_decide_eq_true hheight, hweighted, le_totalWeight_of_sumWeights? hsum⟩

/-! ## Polls of all kinds -/

/-- At height ten there are due a poll with one vote, one that weighs an asset, one without enough
votes and one that links to another.  A fifth is due later, and a sixth was approved before. -/
def MemoryStore.mixed : MemoryStore :=
  holding
    [(PollRequest.single (.filled 1) 10).toPoll 1,
      { (PollRequest.single (.filled 2) 10).toPoll 1 with
        model := .assetWeighted, quorum := some 100 },
      { (PollRequest.single (.filled 3) 10).toPoll 1 with quorum := some 2 },
      (PollRequest.linking (.filled 4) [.filled 2] 10).toPoll 1,
      (PollRequest.single (.filled 5) 20).toPoll 1,
      ((PollRequest.single (.filled 6) 5).toPoll 1).resolve ⟨.filled 6, .approved, 1⟩]
    [⟨.filled 1, ⟨7⟩, 1, 2⟩, ⟨.filled 2, ⟨7⟩, 60, 2⟩, ⟨.filled 2, ⟨8⟩, 50, 3⟩,
      ⟨.filled 3, ⟨7⟩, 1, 3⟩, ⟨.filled 5, ⟨8⟩, 1, 4⟩, ⟨.filled 6, ⟨7⟩, 1, 2⟩]

/-- The ledger that goes with these polls, at the block at height ten. -/
def SimulatedLedger.mixed : SimulatedLedger :=
  let deferring := [1, 2, 3, 4, 6].foldl
    (fun l byte => l.defer (.filled byte) ⟨⟨1⟩, ⟨2⟩, .native, 5⟩) SimulatedLedger.empty
  { deferring with released := (∅ : Table Hash Height).insert (.filled 6) 5, tip := some 10 }

/-- Six operations and the moving of the tip lead to this ledger. -/
theorem SimulatedLedger.reachable_mixed : mixed.Reachable := by
  have hdeferred := (((((Reachable.empty.defer (.filled 1) ⟨⟨1⟩, ⟨2⟩, .native, 5⟩).defer
    (.filled 2) ⟨⟨1⟩, ⟨2⟩, .native, 5⟩).defer (.filled 3) ⟨⟨1⟩, ⟨2⟩, .native, 5⟩).defer
    (.filled 4) ⟨⟨1⟩, ⟨2⟩, .native, 5⟩).defer (.filled 6) ⟨⟨1⟩, ⟨2⟩, .native, 5⟩).setTip 5
  exact (hdeferred.applyRelease
    (Releasable.start ⟨by decide +kernel, rfl, List.not_mem_nil⟩)).setTip 10

/-- The four polls due are decided and three of them released; with one vote of the greatest weight
added there is no sum. -/
theorem resolution_decides_due_polls_only_mixed :
    let w : World MemoryStore SimulatedLedger := ⟨.mixed, .mixed⟩
    let heaviest : Vote := ⟨.filled 2, ⟨9⟩, 0xffffffffffffffff, 3⟩
    let store : MemoryStore :=
      { MemoryStore.mixed with votes := MemoryStore.mixed.votes.insert heaviest.id heaviest }
    MemoryStore.mixed.Keyed ∧ store.Keyed ∧
    (∃ resolved w', (resolveHeight 10).start w = (.ok resolved, w') ∧
      resolved.map (fun r => (r.key, r.status, r.tally)) =
        [(.filled 1, .approved, 1), (.filled 2, .approved, 110), (.filled 3, .rejected, 1),
          (.filled 4, .approved, 0)] ∧
      w.Resolves 10 resolved w') ∧
    UInt64.size ≤ totalWeight ((store.votesOn (.filled 2)).map Vote.weight) := by
  intro w heaviest store
  have hkeyed : MemoryStore.mixed.Keyed := MemoryStore.keyed_holding _ _
  have hstore : store.Keyed := hkeyed.insertVote heaviest
  have hanswer : ((resolveHeight 10).start w).1.toOption.map
      (fun resolved => resolved.map fun r => (r.key, r.status, r.tally)) =
        some [(.filled 1, .approved, 1), (.filled 2, .approved, 110), (.filled 3, .rejected, 1),
          (.filled 4, .approved, 0)] := by
    decide +kernel
  refine ⟨hkeyed, hstore, ?_, ?_⟩
  · rcases hx : (resolveHeight 10).start w with ⟨e | resolved, w'⟩
    · rw [hx] at hanswer
      cases hanswer
    · rw [hx] at hanswer
      exact ⟨resolved, w', rfl, Option.some.inj hanswer,
        (resolution_decides_due_polls_only w hkeyed 10).1 resolved w' hx⟩
  · have hfails : ((resolveHeight 10).start (⟨store, .mixed⟩ : World _ SimulatedLedger)).1
        = .error (.consistency (.tallyOverflow (.filled 2))) := by
      decide +kernel
    obtain ⟨-, -, -, -, hsum⟩ := (resolution_decides_due_polls_only
      (⟨store, .mixed⟩ : World MemoryStore SimulatedLedger) hstore 10).2 (.filled 2) _
        (Prod.ext hfails rfl)
    exact hsum

end Finality
