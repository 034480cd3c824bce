import Finality.Proofs.Engine.Decision
import Finality.Proofs.Engine.Registration
import Finality.Ledger.Simulated
import Mathlib.Order.Bounds.Defs

/-!
# Decisions by links as a least fixed point

Which polls decided by links are approved can be said without visiting any: they are the least set
that contains a poll with all of its links whenever these are approved, by votes, by an earlier
decision, or by being in the set.

* `MemoryStore.Upholds`, `MemoryStore.ClosedAt` — what makes a link count as approved, and the sets
  that are closed under the rule.
* `Outcomes.Sound.closedAt` — right outcomes make a closed set of what they approve.
* `Progress.Leads.approvesWithin` — passes approve nothing outside of any closed set, since they give
  out an approval only over approved links.  Polls in a circle are therefore not approved.
* `PassesUntilStill`, `settleLinked_passes` — passes with no limit but that one decides nothing.
* `linked_outcomes_least_fixed_point` — the result, for all contents of the store.
-/

namespace Finality

variable {S L : Type} {store : MemoryStore} {height : Height} {polls : List Poll}

/-! ## The rule -/

namespace MemoryStore

/-- The votes on a poll reach its quorum. -/
def ReachesQuorum (s : MemoryStore) (p : Poll) : Prop :=
  ∃ quorum tally, p.quorum = some quorum ∧ s.Gathers p tally ∧ quorum ≤ tally

/-- A link counts as approved at a height, given the polls decided by links that are: it names one
of these, or a poll with votes of its own that are enough, or a poll of another height that is
stored as approved. -/
def Upholds (s : MemoryStore) (height : Height) (approved : Set Hash) (link : Hash) : Prop :=
  link ∈ approved ∨ ∃ q, s.polls.find? link = some q ∧
    (q.finishHeight = height ∧ q.model ≠ .transactionApproval ∧ s.ReachesQuorum q ∨
      q.finishHeight ≠ height ∧ q.status = .approved)

/-- Every poll decided by links that is due at the height is in the set if all of its links count
as approved. -/
def ClosedAt (s : MemoryStore) (height : Height) (approved : Set Hash) : Prop :=
  ∀ key p, s.polls.find? key = some p → p.finishHeight = height →
    p.model = .transactionApproval → (∀ link ∈ p.links, s.Upholds height approved link) →
    key ∈ approved

/-- These are the polls due at a height, in some order. -/
structure Due (s : MemoryStore) (height : Height) (polls : List Poll) : Prop where
  /-- All of them are stored, and due. -/
  stored : ∀ {p}, p ∈ polls → s.polls.find? p.key = some p ∧ p.finishHeight = height
  /-- No other poll is due. -/
  complete : ∀ {key p}, s.polls.find? key = some p → p.finishHeight = height →
    p ∈ polls ∧ p.key = key

theorem Keyed.due {s : MemoryStore} (hs : s.Keyed)
    (hperm : polls.Perm (s.pollsWhere (·.finishHeight = height))) : s.Due height polls where
  stored hp := by
    obtain ⟨hfind, hheight⟩ := hs.mem_pollsWhere.1 (hperm.mem_iff.1 hp)
    exact ⟨hfind, of_decide_eq_true hheight⟩
  complete := by
    intro key p hp hheight
    have hkey := hs.polls hp
    refine ⟨hperm.mem_iff.2 (hs.mem_pollsWhere.2 ⟨?_, decide_eq_true hheight⟩), hkey⟩
    rwa [hkey]

theorem Due.unique (hdue : store.Due height polls) :
    ∀ p ∈ polls, ∀ q ∈ polls, p.key = q.key → p = q := by
  intro p hp q hq hkey
  have hfind := (hdue.stored hp).1
  rw [hkey, (hdue.stored hq).1] at hfind
  exact (Option.some.inj hfind).symm

/-- A transaction has a poll among those due if the poll stored for it is due. -/
theorem Due.exists_key_iff (hdue : store.Due height polls) {key : Hash} :
    (∃ p ∈ polls, p.key = key) ↔ ∃ p, store.polls.find? key = some p ∧ p.finishHeight = height := by
  constructor
  · rintro ⟨p, hp, rfl⟩
    exact ⟨p, hdue.stored hp⟩
  · rintro ⟨p, hp, hheight⟩
    exact ⟨p, hdue.complete hp hheight⟩

end MemoryStore

/-- The transactions whose polls are decided by links, and approved. -/
def Outcomes.linkedApprovals (outcomes : Outcomes) (polls : List Poll) : Set Hash :=
  {key | ∃ p ∈ polls, p.isLinked = true ∧ p.key = key ∧
    ∃ o, outcomes.find? key = some o ∧ o.status = .approved}

/-! ## Right outcomes are closed under the rule -/

/-- Enough votes make the outcome an approval. -/
theorem Poll.Quorate.approved_of_reachesQuorum {p : Poll} {o : Outcome}
    (h : p.Quorate o.status o.tally) (hgathers : store.Gathers p o.tally)
    (hreaches : store.ReachesQuorum p) : o.status = .approved := by
  obtain ⟨quorum, hquorum, happroved⟩ := h.approved_iff
  obtain ⟨quorum', tally, hquorum', hgathers', hle⟩ := hreaches
  rw [hquorum] at hquorum'
  cases hquorum'
  rw [happroved, hgathers.tally, ← hgathers'.tally]
  exact hle

/-- **Right outcomes make a closed set** of what they approve. -/
theorem Outcomes.Sound.closedAt {outcomes : Outcomes} (h : outcomes.Sound polls store)
    (hdue : store.Due height polls) : store.ClosedAt height (outcomes.linkedApprovals polls) := by
  intro key p hp hheight hmodel hlinks
  obtain ⟨hmem, rfl⟩ := hdue.complete hp hheight
  have hlinked : p.isLinked = true := decide_eq_true hmodel
  obtain ⟨o, ho⟩ := Table.contains_iff.1 ((h.keys p.key).2 ⟨p, hmem, rfl⟩)
  refine ⟨p, hmem, hlinked, rfl, o, ho, ((h.warrants p hmem o ho).links hlinked).2 ?_⟩
  intro link hlink
  show outcomes.Approves store link
  rcases hlinks link hlink with happroved | ⟨q, hq, ⟨hdueq, hown, hreaches⟩ | ⟨hother, hstatus⟩⟩
  · obtain ⟨q, -, -, rfl, x, hx, happroved⟩ := happroved
    rw [Approves, hx]
    exact happroved
  · obtain ⟨hmemq, rfl⟩ := hdue.complete hq hdueq
    obtain ⟨x, hx⟩ := Table.contains_iff.1 ((h.keys q.key).2 ⟨q, hmemq, rfl⟩)
    have hwarrants := h.warrants q hmemq x hx
    rw [Approves, hx]
    exact (hwarrants.votes (decide_eq_false hown)).approved_of_reachesQuorum hwarrants.gathers
      hreaches
  · cases hx : outcomes.find? link with
    | none =>
      rw [Approves, hx]
      exact ⟨q, hq, hstatus⟩
    | some x =>
      -- What has an outcome is due.
      obtain ⟨q', hq', hdueq⟩ :=
        hdue.exists_key_iff.1 ((h.keys link).1 (Table.contains_iff.2 ⟨x, hx⟩))
      cases hq.symm.trans hq'
      exact absurd hdueq hother

/-! ## Passes approve nothing else -/

namespace Progress

variable {s s' : Progress} {approved : Set Hash}

/-- All polls decided by links that are approved so far are in the set. -/
def ApprovesWithin (s : Progress) (polls : List Poll) (approved : Set Hash) : Prop :=
  ∀ p ∈ polls, p.isLinked = true → ∀ o, s.outcomes.find? p.key = some o → o.status = .approved →
    p.key ∈ approved

/-- A link that is said to be approved counts as approved. -/
theorem Sound.upholds (hs : s.Sound polls store) (hdue : store.Due height polls)
    (hwithin : s.ApprovesWithin polls approved) {link : Hash}
    (htells : s.tells store link = some .approved) : store.Upholds height approved link := by
  unfold tells at htells
  split at htells
  · rename_i o ho
    have happroved := LinkState.ofStatus_eq_approved.1 (Option.some.inj htells)
    obtain ⟨p, hp, rfl⟩ := (hs.keys link).1 (.inl (Table.contains_iff.2 ⟨o, ho⟩))
    cases hlinked : p.isLinked with
    | true => exact .inl (hwithin p hp hlinked o ho happroved)
    | false =>
      have hwarrants := hs.warrants p hp o ho
      obtain ⟨quorum, hquorum, hreached⟩ := (hwarrants.votes hlinked).approved_iff
      obtain ⟨hfind, hheight⟩ := hdue.stored hp
      exact .inr ⟨p, hfind, .inl ⟨hheight, of_decide_eq_false hlinked, quorum, o.tally, hquorum,
        hwarrants.gathers, hreached.1 happroved⟩⟩
  · rename_i hnone
    split at htells
    · cases htells
    · rename_i hdecided
      obtain ⟨q, hq, hstatus⟩ := Option.map_eq_some_iff.1 htells
      refine .inr ⟨q, hq, .inr ⟨fun hheight => ?_, LinkState.ofStatus_eq_approved.1 hstatus⟩⟩
      rcases (hs.keys link).2 (hdue.exists_key_iff.2 ⟨q, hq, hheight⟩) with hknown | hundecided
      · rw [Table.contains_eq_false_iff.2 hnone] at hknown
        cases hknown
      · exact hdecided hundecided

/-- One more outcome approves nothing outside of a closed set. -/
theorem Settles.approvesWithin (h : Settles (polls.filter Poll.isLinked) store height s s')
    (hs : s.Sound polls store) (hdue : store.Due height polls)
    (hclosed : store.ClosedAt height approved) (hwithin : s.ApprovesWithin polls approved) :
    s'.ApprovesWithin polls approved := by
  obtain ⟨p, hp, o, hdecides, rfl⟩ := h
  obtain ⟨hmem, hlinked⟩ := List.mem_filter.1 hp
  intro q hq hlinkedq x hx happroved
  rw [settle, Table.find?_insert] at hx
  split at hx
  · rename_i hkey
    cases hx
    have hbears := hdecides.warrants.links hlinked
    rw [happroved] at hbears
    obtain ⟨hfind, hheight⟩ := hdue.stored hmem
    rw [hkey]
    refine hclosed p.key p hfind hheight (of_decide_eq_true hlinked) fun link hlink => ?_
    exact hs.upholds hdue hwithin (hbears link hlink)
  · exact hwithin q hq hlinkedq x hx happroved

/-- **Passes approve nothing outside of a closed set.** -/
theorem Leads.approvesWithin (h : Leads (polls.filter Poll.isLinked) store height s s')
    (hs : s.Sound polls store) (hdue : store.Due height polls)
    (hclosed : store.ClosedAt height approved) (hwithin : s.ApprovesWithin polls approved) :
    s'.ApprovesWithin polls approved := by
  induction h with
  | refl => exact hwithin
  | tail hleads hsettles ih =>
    have hsound := Leads.sound hleads (fun p hp => (List.mem_filter.1 hp).1) hdue.unique hs
    exact hsettles.approvesWithin hsound hdue hclosed ih

/-- No poll decided by links has an outcome before the passes. -/
theorem opening_approvesWithin {outcomes : Outcomes} (approved : Set Hash)
    (hs : (Progress.opening polls outcomes).Sound polls store) :
    (Progress.opening polls outcomes).ApprovesWithin polls approved := by
  intro p hp hlinked o ho
  have hundecided : (Progress.opening polls outcomes).undecided.contains p.key = true :=
    (contains_foldl_insert _ _ _).2 (.inl ⟨p, List.mem_filter.2 ⟨hp, hlinked⟩, rfl⟩)
  rw [hs.apart p.key hundecided] at ho
  cases ho

/-- Whatever is approved when passes come to a state is in every closed set. -/
theorem Reached.approvesWithin (h : s.Reached polls store height)
    (hdue : store.Due height polls) (hclosed : store.ClosedAt height approved) :
    s.ApprovesWithin polls approved := by
  obtain ⟨outcomes, hopening, hleads⟩ := h
  exact hleads.approvesWithin hopening hdue hclosed (opening_approvesWithin _ hopening)

end Progress

/-! ## The least closed set -/

section

variable [PollStore S] [VoteStore S] [FaithfulStore S] {v : World MemoryStore L}

/-- **Deciding approves the least closed set**, and rejects the other polls decided by links. -/
theorem decidePolls_isLeast (hdue : v.store.Due height polls) :
    Yields (S := S) (decidePolls polls height) v
      (fun o v' => v' = v ∧ o.Sound polls v.store ∧
        IsLeast {approved | v.store.ClosedAt height approved} (o.linkedApprovals polls))
      (ReadFails S (v.store.DecisionFault polls height) v) := by
  refine (decidePolls_reaches hdue.unique height).mono ?_ fun _ _ he => he
  rintro o _ ⟨rfl, s, hreached, hwaits, hleft, hsame⟩
  have hsound := (hreached.sound hdue.unique).close (Progress.stuck_of_waits hwaits) hleft hsame
  refine ⟨rfl, hsound, hsound.closedAt hdue, fun approved hclosed key hkey => ?_⟩
  obtain ⟨p, hp, hlinked, rfl, x, hx, happroved⟩ := hkey
  cases hundecided : s.undecided.contains p.key with
  | true =>
    rw [hleft p.key hundecided] at hx
    cases hx
    cases happroved
  | false =>
    rw [hsame p.key hundecided] at hx
    exact hreached.approvesWithin hdue hclosed p hp hlinked x hx happroved

end

/-! ## Passes without a limit -/

/-- So many passes over linked polls, one after another: every pass but the last decides something,
and the last one does not. -/
inductive PassesUntilStill {σ : Type} [PollStore σ] [VoteStore σ] (height : Height)
    (linked : List Poll) : Nat → Progress → σ → Progress → σ → Prop where
  /-- A pass that decides nothing is the last. -/
  | still {s : Progress} {w w' : σ} (hpass : (passLinked height linked s).start w = (.ok s, w')) :
      PassesUntilStill height linked 1 s w s w'
  /-- Another pass follows one that decides something. -/
  | again {n : Nat} {s s' s'' : Progress} {w w' w'' : σ}
      (hpass : (passLinked height linked s).start w = (.ok s', w')) (hprogress : s' ≠ s)
      (hrest : PassesUntilStill height linked n s' w' s'' w'') :
      PassesUntilStill height linked (n + 1) s w s'' w''

/-- **The limit on passes is never met**: passes without one end too, one pass after the number of
undecided polls at the latest. -/
theorem settleLinked_passes [PollStore S] [VoteStore S] [FaithfulStore S] {linked : List Poll}
    (hlinked : ∀ p ∈ linked, p.isLinked = true) {passes : Nat} {s s' : Progress}
    {w w' : World S L} (hpasses : s.undecided.size < passes)
    (hsettle : (settleLinked height linked passes s).start w = (.ok s', w')) :
    ∃ n ≤ s.undecided.size + 1, PassesUntilStill height linked n s w s' w' := by
  induction passes generalizing s w with
  | zero => exact absurd hpasses (Nat.not_lt_zero _)
  | succ passes ih =>
    rw [settleLinked] at hsettle
    obtain ⟨s₁, w₁, hpass, hsettle⟩ := Action.exists_of_start_bind hsettle
    obtain ⟨-, -, hmet⟩ := (passLinked_yields hlinked s).of_ok hpass
    split at hsettle
    · rename_i hsize
      cases hsettle
      rcases hmet with ⟨rfl, -⟩ | hless
      · exact ⟨1, by omega, .still hpass⟩
      · omega
    · rename_i hsize
      rcases hmet with ⟨rfl, -⟩ | hless
      · exact absurd rfl hsize
      · obtain ⟨n, hn, hrest⟩ := ih (by omega) hsettle
        refine ⟨n + 1, by omega, .again hpass ?_ hrest⟩
        rintro rfl
        exact hsize rfl

/-! ## The result -/

/-- **Linked outcomes are the least fixed point.**  For every height and every content of the store,
circles of links included, for which the polls due at the height can be decided:

* the polls decided by links that are approved are the least set that contains such a poll whenever
  each of its links names a poll of another model that is due too and reaches its quorum, or a poll
  of another height that is stored as approved, or a poll in the set;
* all other polls decided by links are rejected;
* the votes, then passes over these polls until one decides nothing, and then the rejection of what
  is left come to these outcomes, and there is at most one pass more than there are such polls. -/
theorem linked_outcomes_least_fixed_point [PollStore S] [VoteStore S] [FaithfulStore S]
    {w w' : World S L} {outcomes : Outcomes} (hkeyed : w.view.store.Keyed)
    (hdecide : (decidePolls (w.view.store.pollsWhere (·.finishHeight = height)) height).start w
      = (.ok outcomes, w')) :
    let store := w.view.store
    let due := store.pollsWhere (·.finishHeight = height)
    let linked := due.filter Poll.isLinked
    IsLeast {approved | store.ClosedAt height approved} (outcomes.linkedApprovals due) ∧
    (∀ p ∈ due, p.model = .transactionApproval → ∃ o, outcomes.find? p.key = some o ∧
      (o.status = .approved ∨ o.status = .rejected)) ∧
    ∃ voted w₁ s w₂ passes, passes ≤ linked.length + 1 ∧
      (decideAllByVotes (due.filter fun p => !p.isLinked)).start w = (.ok voted, w₁) ∧
      PassesUntilStill height linked passes (.opening due voted) w₁ s w₂ ∧
      (rejectUndecided s).start w₂ = (.ok outcomes, w') := by
  intro store due linked
  have hdue : store.Due height due := hkeyed.due (.refl _)
  obtain ⟨-, hsound, hleast⟩ := (decidePolls_isLeast hdue).of_ok hdecide
  refine ⟨hleast, fun p hp hmodel => ?_, ?_⟩
  · obtain ⟨o, ho⟩ := Table.contains_iff.1 ((hsound.keys p.key).2 ⟨p, hp, rfl⟩)
    have hresolved := (hsound.warrants p hp o ho).resolved
    refine ⟨o, ho, ?_⟩
    cases hstatus : o.status with
    | pending =>
      rw [hstatus] at hresolved
      cases hresolved
    | approved => exact .inl rfl
    | rejected => exact .inr rfl
  · rw [decidePolls_eq] at hdecide
    obtain ⟨s, w₂, hlinks, hrest⟩ := Action.exists_of_start_bind hdecide
    obtain ⟨voted, w₁, hvotes, hsettle⟩ := Action.exists_of_start_bind hlinks
    have hsize := Progress.size_opening_lt due voted
    obtain ⟨passes, hpasses, hstill⟩ :=
      settleLinked_passes (fun p hp => (List.mem_filter.1 hp).2) hsize hsettle
    exact ⟨voted, w₁, s, w₂, passes, Nat.le_trans hpasses hsize, hvotes, hstill, hrest⟩

/-- The hash whose bytes are all the same. -/
def Hash.filled (byte : UInt8) : Hash := ⟨List.replicate 32 byte, rfl⟩

/-- A store with these polls and votes. -/
def MemoryStore.holding (ps : List Poll) (vs : List Vote) : MemoryStore :=
  { polls := ps.foldl (fun t p => t.insert p.key p) ∅
    votes := vs.foldl (fun t v => t.insert v.id v) ∅ }

theorem MemoryStore.keyed_holding (ps : List Poll) (vs : List Vote) : (holding ps vs).Keyed := by
  have hpolls : ∀ {s : MemoryStore}, s.Keyed →
      Keyed { s with polls := ps.foldl (fun t p => t.insert p.key p) s.polls } := by
    induction ps with
    | nil => exact fun hs => hs
    | cons p ps ih => exact fun hs => ih (hs.insertPoll p)
  have hvotes : ∀ {s : MemoryStore}, s.Keyed →
      Keyed { s with votes := vs.foldl (fun t v => t.insert v.id v) s.votes } := by
    induction vs with
    | nil => exact fun hs => hs
    | cons v vs ih => exact fun hs => ih (hs.insertVote v)
  exact hvotes (hpolls keyed_empty)

/-- At height ten a chain of links ends at a poll with a vote, two polls link to each other, and
another one links to these. -/
def MemoryStore.tangled : MemoryStore :=
  holding
    [(PollRequest.linking (.filled 1) [.filled 2] 10).toPoll 1,
      (PollRequest.linking (.filled 2) [.filled 3] 10).toPoll 1,
      (PollRequest.single (.filled 3) 10).toPoll 1,
      (PollRequest.linking (.filled 4) [.filled 5, .filled 3] 10).toPoll 1,
      (PollRequest.linking (.filled 5) [.filled 4] 10).toPoll 1,
      (PollRequest.linking (.filled 6) [.filled 2, .filled 4] 10).toPoll 1]
    [⟨.filled 3, ⟨7⟩, 1, 2⟩]

/-- The chain is approved from its end, against the order of visits; the circle and what links to it
are rejected. -/
theorem linked_outcomes_least_fixed_point_tangled :
    let w : World MemoryStore SimulatedLedger := ⟨.tangled, .empty⟩
    let due := MemoryStore.tangled.pollsWhere (·.finishHeight = 10)
    MemoryStore.tangled.Keyed ∧ ∃ outcomes w',
      (decidePolls due 10).start w = (.ok outcomes, w') ∧
      outcomes.entries.map (fun e => (e.1, e.2.status)) =
        [(.filled 1, .approved), (.filled 2, .approved), (.filled 3, .approved),
          (.filled 4, .rejected), (.filled 5, .rejected), (.filled 6, .rejected)] ∧
      IsLeast {approved | MemoryStore.tangled.ClosedAt 10 approved}
        (outcomes.linkedApprovals due) := by
  intro w due
  have hkeyed : MemoryStore.tangled.Keyed := MemoryStore.keyed_holding _ _
  have hstatuses : ((decidePolls due 10).start w).1.toOption.map
      (fun outcomes => outcomes.entries.map fun e => (e.1, e.2.status)) =
        some [(.filled 1, .approved), (.filled 2, .approved), (.filled 3, .approved),
          (.filled 4, .rejected), (.filled 5, .rejected), (.filled 6, .rejected)] := by
    decide +kernel
  rcases hdecide : (decidePolls due 10).start w with ⟨e | outcomes, w'⟩
  · rw [hdecide] at hstatuses
    cases hstatuses
  · rw [hdecide] at hstatuses
    exact ⟨hkeyed, outcomes, w', rfl, Option.some.inj hstatuses,
      (linked_outcomes_least_fixed_point (w := w) hkeyed hdecide).1⟩

end Finality
