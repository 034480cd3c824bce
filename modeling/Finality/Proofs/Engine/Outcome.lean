import Finality.Engine.Decision
import Finality.Proofs.Table
import Finality.Store.Memory

/-!
# What votes and links call for

Deciding the polls of a height gives every one of them an outcome.  This file says, without
mentioning how outcomes are found, which outcome is the right one, and follows it through the
passes over the polls decided by links.

* `MemoryStore.Gathers`, `Poll.Quorate` — the right tally of a poll, and the right status of one
  with votes of its own.
* `Progress.tells` — what a link says as far as outcomes are known, as a function of the store.
  `Progress.tells_settle` — what a link says for certain it says for good.
* `Progress.Sound` — the invariant of the passes: whatever has an outcome has the right one.
  `Progress.Sound.settle` keeps it.
* `Progress.Stuck` — a further pass decides nothing: every undecided poll has an undecided link.
* `Outcomes.Sound` — the outcomes of all polls are right.  `Progress.Sound.close` gets there from a
  state that is stuck by rejecting what is left.
-/

namespace Finality

/-! ## Votes -/

/-- What the votes on a poll come to: the sum of their weights where balances are weighed, and
otherwise their number. -/
def MemoryStore.gathered (s : MemoryStore) (p : Poll) : Nat :=
  if p.model.isWeighted then totalWeight ((s.votesOn p.key).map Vote.weight)
  else (s.votesOn p.key).length

/-- The tally is what the votes on a poll come to. -/
structure MemoryStore.Gathers (s : MemoryStore) (p : Poll) (tally : Amount) : Prop where
  /-- It is the number gathered, as far as 64 bits hold it. -/
  tally : tally = UInt64.ofNat (s.gathered p)
  /-- They hold every sum of weights. -/
  fits : p.model.isWeighted = true → s.gathered p < UInt64.size

/-- The status is what the tally makes of a poll with a quorum. -/
def Poll.Quorate (p : Poll) (status : PollStatus) (tally : Amount) : Prop :=
  ∃ quorum, p.quorum = some quorum ∧ status = if quorum ≤ tally then .approved else .rejected

theorem Poll.Quorate.isResolved {p : Poll} {status : PollStatus} {tally : Amount}
    (h : p.Quorate status tally) : status.isResolved = true := by
  obtain ⟨quorum, -, rfl⟩ := h
  split <;> rfl

/-- Approval is what reaches the quorum. -/
theorem Poll.Quorate.approved_iff {p : Poll} {status : PollStatus} {tally : Amount}
    (h : p.Quorate status tally) :
    ∃ quorum, p.quorum = some quorum ∧ (status = .approved ↔ quorum ≤ tally) := by
  obtain ⟨quorum, hquorum, rfl⟩ := h
  refine ⟨quorum, hquorum, ?_⟩
  by_cases hreached : quorum ≤ tally <;> simp [hreached]

theorem sumWeights?_eq_some_iff {weights : List Amount} {sum : Amount} :
    sumWeights? weights = some sum ↔
      totalWeight weights < UInt64.size ∧ sum = UInt64.ofNat (totalWeight weights) := by
  unfold sumWeights?
  by_cases h : totalWeight weights < UInt64.size <;> simp [h, eq_comm]

/-- Polls decided by links weigh nothing. -/
theorem Poll.isWeighted_of_isLinked {p : Poll} (h : p.isLinked = true) :
    p.model.isWeighted = false := by
  rw [of_decide_eq_true h]
  rfl

/-- The number of votes is what they come to on a poll that weighs nothing. -/
theorem MemoryStore.Gathers.of_length {s : MemoryStore} {p : Poll}
    (h : p.model.isWeighted = false) : s.Gathers p (UInt64.ofNat (s.votesOn p.key).length) where
  tally := by simp [gathered, h]
  fits hweighted := by
    rw [h] at hweighted
    cases hweighted

/-! ## Links -/

/-- What a poll with this status says to those that link to it. -/
def LinkState.ofStatus (status : PollStatus) : LinkState :=
  if status = .approved then .approved else .notApproved

theorem LinkState.ofStatus_ne_undecided (status : PollStatus) :
    LinkState.ofStatus status ≠ .undecided := by
  cases status <;> simp [ofStatus]

theorem LinkState.ofStatus_eq_approved {status : PollStatus} :
    LinkState.ofStatus status = .approved ↔ status = .approved := by
  cases status <;> simp [ofStatus]

namespace Progress

/-- What a link says: by its outcome if there is one, otherwise by the status of the stored poll;
nothing if there is no such poll. -/
def tells (s : Progress) (store : MemoryStore) (link : Hash) : Option LinkState :=
  match s.outcomes.find? link with
  | some o => some (.ofStatus o.status)
  | none =>
    if s.undecided.contains link then some .undecided
    else (store.polls.find? link).map fun q => .ofStatus q.status

variable {store : MemoryStore} {polls : List Poll} {s : Progress}

theorem tells_of_outcome {link : Hash} {o : Outcome} (h : s.outcomes.find? link = some o) :
    s.tells store link = some (.ofStatus o.status) := by
  rw [tells, h]

theorem tells_of_undecided {link : Hash} (hnone : s.outcomes.find? link = none)
    (h : s.undecided.contains link = true) : s.tells store link = some .undecided := by
  simp [tells, hnone, h]

theorem tells_of_stored {link : Hash} {q : Poll} (hnone : s.outcomes.find? link = none)
    (hdecided : s.undecided.contains link = false) (h : store.polls.find? link = some q) :
    s.tells store link = some (.ofStatus q.status) := by
  simp [tells, hnone, hdecided, h]

theorem contains_undecided_of_tells {link : Hash} (h : s.tells store link = some .undecided) :
    s.undecided.contains link = true := by
  unfold tells at h
  split at h
  · exact absurd (Option.some.inj h) (LinkState.ofStatus_ne_undecided _)
  · split at h
    · assumption
    · obtain ⟨q, -, hq⟩ := Option.map_eq_some_iff.1 h
      exact absurd hq (LinkState.ofStatus_ne_undecided _)

/-- **What a link says for certain it says for good**: giving an undecided poll its outcome does not
change it. -/
theorem tells_settle {key link : Hash} (o : Outcome) {state : LinkState}
    (hnone : s.outcomes.find? key = none) (hkey : s.undecided.contains key = true)
    (h : s.tells store link = some state) (hstate : state ≠ .undecided) :
    (s.settle key o).tells store link = some state := by
  have hne : link ≠ key := by
    rintro rfl
    rw [tells_of_undecided hnone hkey] at h
    exact hstate (Option.some.inj h).symm
  have hundecided : (s.settle key o).undecided.contains link = s.undecided.contains link := by
    rw [settle, Table.contains, Table.find?_erase, if_neg hne, Table.contains]
  rw [← h, tells, tells, hundecided, settle, Table.find?_insert, if_neg hne]

/-- What a verdict on a poll tells about its links: all are approved, or one is not, or one is still
undecided. -/
def Bears (s : Progress) (store : MemoryStore) (links : List Hash) : Option PollStatus → Prop
  | some .approved => ∀ link ∈ links, s.tells store link = some .approved
  | some .rejected => ∃ link ∈ links, s.tells store link = some .notApproved
  | some .pending => False
  | none => ∃ link ∈ links, s.tells store link = some .undecided

theorem Bears.isResolved {links : List Hash} {status : PollStatus}
    (h : s.Bears store links (some status)) : status.isResolved = true := by
  cases status with
  | pending => exact h.elim
  | approved => rfl
  | rejected => rfl

/-- An approved link in front makes no difference to the verdict. -/
theorem Bears.cons_approved {link : Hash} {links : List Hash} {verdict : Option PollStatus}
    (h : s.Bears store links verdict) (hlink : s.tells store link = some .approved) :
    s.Bears store (link :: links) verdict := by
  match verdict, h with
  | some .approved, h => exact List.forall_mem_cons.2 ⟨hlink, h⟩
  | some .rejected, ⟨other, hother, htells⟩ =>
    exact ⟨other, List.mem_cons_of_mem _ hother, htells⟩
  | some .pending, h => exact h
  | none, ⟨other, hother, htells⟩ => exact ⟨other, List.mem_cons_of_mem _ hother, htells⟩

/-- Verdicts that have been reached stand. -/
theorem Bears.settle {key : Hash} (o : Outcome) (hnone : s.outcomes.find? key = none)
    (hkey : s.undecided.contains key = true) {links : List Hash} {status : PollStatus}
    (h : s.Bears store links (some status)) : (s.settle key o).Bears store links (some status) := by
  cases status with
  | pending => exact h
  | approved => exact fun link hlink => tells_settle o hnone hkey (h link hlink) (by simp)
  | rejected =>
    obtain ⟨link, hlink, htells⟩ := h
    exact ⟨link, hlink, tells_settle o hnone hkey htells (by simp)⟩

/-! ## Outcomes on the way -/

/-- The outcome is the one that the votes on a poll, or its links, call for. -/
structure Warrants (s : Progress) (store : MemoryStore) (p : Poll) (o : Outcome) : Prop where
  /-- The votes on the poll are counted. -/
  gathers : store.Gathers p o.tally
  /-- A poll with votes of its own goes by its quorum. -/
  votes : p.isLinked = false → p.Quorate o.status o.tally
  /-- A poll decided by links goes by what they say. -/
  links : p.isLinked = true → s.Bears store p.links (some o.status)

/-- Whatever has an outcome has the right one, and whatever has none is undecided. -/
structure Sound (polls : List Poll) (store : MemoryStore) (s : Progress) : Prop where
  /-- Every poll has an outcome or is undecided, and nothing else. -/
  keys : ∀ key, (s.outcomes.contains key = true ∨ s.undecided.contains key = true) ↔
    ∃ p ∈ polls, p.key = key
  /-- What is undecided has no outcome. -/
  apart : ∀ key, s.undecided.contains key = true → s.outcomes.find? key = none
  /-- Only polls decided by links are undecided. -/
  linked : ∀ p ∈ polls, s.undecided.contains p.key = true → p.isLinked = true
  /-- Outcomes are right. -/
  warrants : ∀ p ∈ polls, ∀ o, s.outcomes.find? p.key = some o → s.Warrants store p o

/-- Giving an undecided poll the outcome that its links call for. -/
theorem Sound.settle (hs : s.Sound polls store)
    (hunique : ∀ p ∈ polls, ∀ q ∈ polls, p.key = q.key → p = q) {p : Poll} (hp : p ∈ polls)
    (hkey : s.undecided.contains p.key = true) {o : Outcome} (ho : s.Warrants store p o) :
    (s.settle p.key o).Sound polls store := by
  have hnone := hs.apart p.key hkey
  have hkept : ∀ {q x}, s.Warrants store q x → (s.settle p.key o).Warrants store q x :=
    fun h => ⟨h.gathers, h.votes, fun hlinked => (h.links hlinked).settle o hnone hkey⟩
  refine ⟨fun key => ?_, fun key hundecided => ?_, fun q hq hundecided => ?_, fun q hq x hx => ?_⟩
  · rw [Progress.settle, ← hs.keys key, Table.contains_insert, Table.contains_erase]
    by_cases heq : key = p.key
    · simp [heq, hkey]
    · simp [heq]
  · rw [Progress.settle, Table.contains_erase] at hundecided
    rw [Progress.settle, Table.find?_insert, if_neg hundecided.1]
    exact hs.apart key hundecided.2
  · rw [Progress.settle, Table.contains_erase] at hundecided
    exact hs.linked q hq hundecided.2
  · rw [Progress.settle, Table.find?_insert] at hx
    split at hx
    · rename_i heq
      cases hx
      rw [hunique q hq p hp heq]
      exact hkept ho
    · exact hkept (hs.warrants q hq x hx)

/-- A further pass decides nothing, since every undecided poll among these waits for another. -/
def Stuck (polls : List Poll) (s : Progress) : Prop :=
  ∀ p ∈ polls, s.undecided.contains p.key = true →
    ∃ link ∈ p.links, s.undecided.contains link = true

/-- **Without a circle of links nothing waits forever**: if every link leads to a lower rank, a
state that is stuck has no undecided polls. -/
theorem Stuck.undecided_eq_empty (hs : s.Sound polls store)
    (hstuck : s.Stuck (polls.filter Poll.isLinked)) {rank : Hash → Nat}
    (hrank : ∀ p ∈ polls, ∀ link ∈ p.links, rank link < rank p.key) : s.undecided = ∅ := by
  have hnone : ∀ n key, rank key < n → s.undecided.contains key = false := by
    intro n
    induction n with
    | zero => exact fun key hlt => absurd hlt (Nat.not_lt_zero _)
    | succ n ih =>
      intro key hlt
      cases hcontains : s.undecided.contains key with
      | false => rfl
      | true =>
        obtain ⟨p, hp, rfl⟩ := (hs.keys key).1 (.inr hcontains)
        have hlinked := List.mem_filter.2 ⟨hp, hs.linked p hp hcontains⟩
        obtain ⟨link, hlink, hwaits⟩ := hstuck p hlinked hcontains
        have hlower := hrank p hp link hlink
        rw [ih link (by omega)] at hwaits
        cases hwaits
  refine Table.ext_find? fun key => ?_
  rw [Table.find?_empty]
  exact Table.contains_eq_false_iff.1 (hnone _ key (Nat.lt_succ_self _))

end Progress

/-! ## Outcomes in the end -/

namespace Outcomes

/-- A linked transaction is approved: by its outcome, or else by its stored status. -/
def Approves (outcomes : Outcomes) (store : MemoryStore) (link : Hash) : Prop :=
  match outcomes.find? link with
  | some o => o.status = .approved
  | none => ∃ q, store.polls.find? link = some q ∧ q.status = .approved

/-- The outcome is the one that the votes on a poll, or its links, call for. -/
structure Warrants (outcomes : Outcomes) (store : MemoryStore) (p : Poll) (o : Outcome) :
    Prop where
  /-- It is a decision. -/
  resolved : o.status.isResolved = true
  /-- The votes on the poll are counted. -/
  gathers : store.Gathers p o.tally
  /-- A poll with votes of its own goes by its quorum. -/
  votes : p.isLinked = false → p.Quorate o.status o.tally
  /-- A poll decided by links is approved if all of them are. -/
  links : p.isLinked = true →
    (o.status = .approved ↔ ∀ link ∈ p.links, outcomes.Approves store link)

/-- These polls, and no others, have the right outcomes. -/
structure Sound (polls : List Poll) (store : MemoryStore) (outcomes : Outcomes) : Prop where
  /-- Exactly these polls have an outcome. -/
  keys : ∀ key, outcomes.contains key = true ↔ ∃ p ∈ polls, p.key = key
  /-- It is the right one. -/
  warrants : ∀ p ∈ polls, ∀ o, outcomes.find? p.key = some o → outcomes.Warrants store p o

end Outcomes

namespace Progress.Sound

variable {store : MemoryStore} {polls : List Poll} {s : Progress} {outcomes : Outcomes}

/-- Once what is left is rejected, a link is approved if it was said to be, and only then. -/
theorem approves_iff (hs : s.Sound polls store)
    (hleft : ∀ key, s.undecided.contains key = true →
      outcomes.find? key = some ⟨.rejected, UInt64.ofNat (store.votesOn key).length⟩)
    (hsame : ∀ key, s.undecided.contains key = false →
      outcomes.find? key = s.outcomes.find? key) {link : Hash} :
    outcomes.Approves store link ↔ s.tells store link = some .approved := by
  unfold Outcomes.Approves Progress.tells
  cases hundecided : s.undecided.contains link with
  | true =>
    rw [hs.apart link hundecided, hleft link hundecided]
    simp
  | false =>
    rw [hsame link hundecided]
    cases s.outcomes.find? link with
    | some o => simp [LinkState.ofStatus_eq_approved]
    | none => simp [LinkState.ofStatus_eq_approved]

/-- **Rejecting what is left over** leaves every poll with the right outcome, if nothing else could
be decided any more. -/
theorem close (hs : s.Sound polls store) (hstuck : s.Stuck (polls.filter Poll.isLinked))
    (hleft : ∀ key, s.undecided.contains key = true →
      outcomes.find? key = some ⟨.rejected, UInt64.ofNat (store.votesOn key).length⟩)
    (hsame : ∀ key, s.undecided.contains key = false →
      outcomes.find? key = s.outcomes.find? key) : outcomes.Sound polls store := by
  refine ⟨fun key => ?_, fun p hp o ho => ?_⟩
  · rw [← hs.keys key]
    cases hundecided : s.undecided.contains key with
    | true => simp [Table.contains, hleft key hundecided]
    | false => simp [Table.contains, hsame key hundecided]
  · cases hundecided : s.undecided.contains p.key with
    | true =>
      have hlinked := hs.linked p hp hundecided
      rw [hleft p.key hundecided] at ho
      cases ho
      refine ⟨rfl, .of_length (Poll.isWeighted_of_isLinked hlinked), fun hnot => ?_,
        fun _ => iff_of_false (by simp) fun hall => ?_⟩
      · rw [hlinked] at hnot
        cases hnot
      · -- The undecided link, for which the poll has been waiting, is rejected as well.
        obtain ⟨link, hlink, hwaits⟩ := hstuck p (List.mem_filter.2 ⟨hp, hlinked⟩) hundecided
        have happroved := hall link hlink
        rw [Outcomes.Approves, hleft link hwaits] at happroved
        cases happroved
    | false =>
      rw [hsame p.key hundecided] at ho
      have hwarrants := hs.warrants p hp o ho
      refine ⟨?_, hwarrants.gathers, hwarrants.votes, fun hlinked => ?_⟩
      · cases hlinked : p.isLinked with
        | true => exact (hwarrants.links hlinked).isResolved
        | false => exact (hwarrants.votes hlinked).isResolved
      · have hbears := hwarrants.links hlinked
        simp only [hs.approves_iff hleft hsame]
        cases hstatus : o.status with
        | pending =>
          rw [hstatus] at hbears
          exact hbears.elim
        | approved =>
          rw [hstatus] at hbears
          exact iff_of_true rfl hbears
        | rejected =>
          rw [hstatus] at hbears
          obtain ⟨link, hlink, htells⟩ := hbears
          refine iff_of_false (by simp) fun hall => ?_
          rw [hall link hlink] at htells
          cases htells

end Progress.Sound

end Finality
