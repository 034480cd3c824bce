import Finality.Ledger.Simulated
import Finality.Proofs.Engine.Acceptance
import Finality.Proofs.Engine.Fixpoint
import Finality.Proofs.Engine.Voting
import Mathlib.Data.List.Basic

/-!
# Which votes are accepted

A vote on a registered poll is accepted exactly if nothing speaks against it, and is refused for the
first reason that does.  The reasons look at the request of the poll, as it was registered, and not
at the sorted whitelist of the poll or at the effective floor.

* `VoterCriteria.Eligible`, `VoterCriteria.voice` — who has a voice, given balances, and what it
  counts.  `weight_returns`: this is what weighing a vote answers.
* `MemoryStore.answerTo`, `MemoryStore.record` — the answer to a vote, and the store afterwards, as
  functions of the store and of what the vote counts.  `castVote_answers`: `castVote` is these.
* `PollRequest.objections` — what speaks against a vote, in the order in which it is looked for.
  `answerTo_toPoll`: the answer is the first of them.
* `votes_admitted_exactly` — the result.
-/

namespace Finality

variable {S L : Type}

/-! ## Eligible voters -/

/-- The eligibility of an account whose vote counts so much, unless it is missing something. -/
def Eligibility.unless (missing : List IneligibleReason) (weight : Amount) : Eligibility :=
  match missing with
  | [] => .eligible weight
  | reason :: _ => .ineligible reason

namespace VoterCriteria

/-- The holding that weighs the votes, if one does. -/
def weighingHolding? (c : VoterCriteria) : Option Holding :=
  c.model.holdingKind?.map fun kind => ⟨kind, c.holding⟩

/-- An account with these balances has a voice: it reaches the least balance, of the native coin
unless another is named where accounts vote, and has some of the holding that weighs votes. -/
structure Eligible (balance : Holding → Amount) (c : VoterCriteria) : Prop where
  /-- Where accounts vote, some balance is looked at in any case. -/
  account : c.model = .account → c.minBalance ≤ balance (c.floor.holding?.getD .native)
  /-- Where balances are weighed, it is looked at if it is named. -/
  floor : c.model.isWeighted = true →
    ∀ holding, c.floor.holding? = some holding → c.minBalance ≤ balance holding
  /-- What weighs the votes is not zero. -/
  weighed : ∀ holding, c.weighingHolding? = some holding → 0 < balance holding

/-- What the vote of an account with these balances counts: its balance of the holding that weighs
the votes, and one where none does. -/
def voice (balance : Holding → Amount) (c : VoterCriteria) : Amount :=
  match c.weighingHolding? with
  | some holding => balance holding
  | none => 1

/-- The balance that must reach the least balance, if one is looked at. -/
def floorHolding? (c : VoterCriteria) : Option Holding :=
  match c.model with
  | .none | .transactionApproval => none
  | .account => some (c.floor.holding?.getD .native)
  | .assetWeighted | .currencyWeighted => c.floor.holding?

/-- A balance that is looked at and does not reach the least balance. -/
def belowFloor (balance : Holding → Amount) (required : Amount) (holding? : Option Holding) :
    List IneligibleReason :=
  holding?.toList.flatMap fun holding =>
    reportIf (balance holding < required) (.belowMinBalance (balance holding) required)

/-- A holding that weighs the votes and of which there is nothing. -/
def noneHeld (balance : Holding → Amount) (holding? : Option Holding) : List IneligibleReason :=
  holding?.toList.flatMap fun holding => reportIf (balance holding = 0) .noHolding

/-- What an account with these balances is missing, in the order in which it is looked for. -/
def shortfalls (balance : Holding → Amount) (c : VoterCriteria) : List IneligibleReason :=
  belowFloor balance c.minBalance c.floorHolding? ++ noneHeld balance c.weighingHolding?

/-- Whether an account with these balances may vote, and what its vote counts. -/
def eligibility (balance : Holding → Amount) (c : VoterCriteria) : Eligibility :=
  .unless (c.shortfalls balance) (c.voice balance)

variable {balance : Holding → Amount} {c : VoterCriteria}

theorem belowFloor_eq_nil_iff {required : Amount} {holding? : Option Holding} :
    belowFloor balance required holding? = [] ↔
      ∀ holding, holding? = some holding → required ≤ balance holding := by
  simp [belowFloor, UInt64.not_lt]

theorem noneHeld_eq_nil_iff {holding? : Option Holding} :
    noneHeld balance holding? = [] ↔ ∀ holding, holding? = some holding → 0 < balance holding := by
  simp [noneHeld, UInt64.pos_iff_ne_zero]

/-- An account that is missing nothing has a voice. -/
theorem shortfalls_eq_nil_iff : c.shortfalls balance = [] ↔ c.Eligible balance := by
  rw [shortfalls, List.append_eq_nil_iff, belowFloor_eq_nil_iff, noneHeld_eq_nil_iff]
  unfold floorHolding?
  constructor
  · rintro ⟨hfloor, hholding⟩
    refine ⟨fun hmodel => ?_, fun hweighted holding hnamed => ?_, hholding⟩
    · rw [hmodel] at hfloor
      exact hfloor _ rfl
    · cases hmodel : c.model <;> rw [hmodel] at hfloor hweighted
      case assetWeighted => exact hfloor _ hnamed
      case currencyWeighted => exact hfloor _ hnamed
      all_goals cases hweighted
  · intro h
    refine ⟨fun holding hlooked => ?_, h.weighed⟩
    cases hmodel : c.model <;> rw [hmodel] at hlooked
    case account =>
      cases hlooked
      exact h.account hmodel
    case assetWeighted => exact h.floor (by rw [hmodel]; rfl) _ hlooked
    case currencyWeighted => exact h.floor (by rw [hmodel]; rfl) _ hlooked
    all_goals cases hlooked

/-- What is missing at first decides, and otherwise what the rest answers. -/
theorem unless_returns {Λ : L → Prop} {missing later : List IneligibleReason} {weight : Amount}
    {rest : Action L LedgerError Eligibility}
    (hrest : rest.Returns Λ (.ok (.unless later weight))) :
    Action.Returns Λ (.ok (.unless (missing ++ later) weight))
      (match missing.head? with
        | some reason => return .ineligible reason
        | none => rest) := by
  cases missing with
  | nil => exact hrest
  | cons reason missing => exact .pure _

section

variable [Ledger L] {Λ : L → Prop} {voter : AccountId} {height : Height}
  (hbalance : ∀ holding, (Ledger.balanceOf voter holding height).Returns Λ (.ok (balance holding)))
include hbalance

theorem checkFloor_returns (floor : BalanceFloor) (required : Amount) :
    (checkFloor floor required voter height).Returns Λ
      (.ok (belowFloor balance required floor.holding?).head?) := by
  unfold checkFloor belowFloor
  cases floor.holding? with
  | none => exact .pure _
  | some holding =>
    dsimp only
    split
    · rename_i hzero
      rw [hzero]
      exact .pure _
    · refine .bind (hbalance holding) ?_
      simp only [Option.toList_some, List.flatMap_cons, List.flatMap_nil, List.append_nil, reportIf]
      split <;> exact .pure _

/-- The balance that weighs a vote is what it counts, unless there is nothing. -/
theorem held_returns (holding : Holding) :
    Action.Returns Λ (.ok (.unless (noneHeld balance (some holding)) (balance holding))) (do
      let balance ← Ledger.balanceOf voter holding height
      return if balance = 0 then Eligibility.ineligible .noHolding else .eligible balance) := by
  refine .bind (hbalance holding) ?_
  simp only [noneHeld, Option.toList_some, List.flatMap_cons, List.flatMap_nil, List.append_nil,
    reportIf]
  split <;> exact .pure _

/-- **What weighing a vote answers** is what the balances say. -/
theorem weight_returns (c : VoterCriteria) :
    (c.weight voter height).Returns Λ (.ok (c.eligibility balance)) := by
  have hfloor := checkFloor_returns hbalance c.effectiveFloor c.minBalance
  -- Where a balance is looked at, the effective floor names it.
  have hsame : c.model = .account ∨ c.model.isWeighted = true →
      c.effectiveFloor.holding? = c.floorHolding? := by
    unfold effectiveFloor floorHolding?
    cases c.model <;> cases c.floor <;> simp [VotingModel.isWeighted, BalanceFloor.holding?]
  obtain ⟨model, holding, floor, minBalance⟩ := c
  cases model with
  | none => exact .pure _
  | transactionApproval => exact .pure _
  | account =>
    rw [hsame (.inl rfl)] at hfloor
    exact .bind hfloor (unless_returns (.pure _))
  | assetWeighted =>
    rw [hsame (.inr rfl)] at hfloor
    exact .bind hfloor (unless_returns (held_returns hbalance ⟨.asset, holding⟩))
  | currencyWeighted =>
    rw [hsame (.inr rfl)] at hfloor
    exact .bind hfloor (unless_returns (held_returns hbalance ⟨.currency, holding⟩))

end

end VoterCriteria

/-! ## Answers -/

namespace MemoryStore

/-- The answer to a vote in a block, given what each vote counts. -/
def answerTo (weigh : Poll → AccountId → Except LedgerError Eligibility) (height : Height)
    (id : VoteKey) (s : MemoryStore) : Except EngineError VoteOutcome :=
  match s.polls.find? id.poll with
  | none => .ok (.rejected .pollNotFound)
  | some p =>
    match p.refusal id.voter height with
    | some reason => .ok (.rejected reason)
    | none =>
      if s.votes.contains id then .ok (.rejected .alreadyVoted)
      else
        match weigh p id.voter with
        | .error e => .error (.ledger e)
        | .ok (.ineligible reason) => .ok (.rejected (.ineligible reason))
        | .ok (.eligible weight) => .ok (.accepted weight)

/-- The store after a vote in a block has had this answer: with the vote, if it was accepted. -/
def record (height : Height) (id : VoteKey) (answer : Except EngineError VoteOutcome)
    (s : MemoryStore) : MemoryStore :=
  match answer with
  | .ok (.accepted weight) =>
    { s with votes := s.votes.insert id { poll := id.poll, voter := id.voter, weight, height } }
  | _ => s

end MemoryStore

section

variable [PollStore S] [VoteStore S] [FaithfulStore S] [Ledger L] {Λ : L → Prop}
  {v : World MemoryStore L} {height : Height}

/-- **Casting a vote**, over a store that does not fail and a ledger that says what each vote
counts, gives its answer, and stores what that answer stores. -/
theorem castVote_answers {weigh : Poll → AccountId → Except LedgerError Eligibility}
    (hsafe : ¬ FaithfulStore.fallible S)
    (hweigh : ∀ p voter, (p.weightOf voter height : Action L _ _).Returns Λ (weigh p voter))
    (hledger : Λ v.ledger) (id : VoteKey) :
    Yields (S := S) (castVote id.poll id.voter height) v
      (fun o v' => v.store.answerTo weigh height id = .ok o ∧
        v'.store = v.store.record height id (.ok o) ∧ Λ v'.ledger)
      (fun e v' => v.store.answerTo weigh height id = .error e ∧
        v'.store = v.store.record height id (.error e) ∧ Λ v'.ledger) := by
  unfold castVote MemoryStore.answerTo
  refine .bind (.inStore (yields_findPoll (fun hf => absurd hf hsafe) ?_))
  cases v.store.polls.find? id.poll with
  | none => exact .pure ⟨rfl, rfl, hledger⟩
  | some p =>
    dsimp only
    cases p.refusal id.voter height with
    | some reason => exact .pure ⟨rfl, rfl, hledger⟩
    | none =>
      refine .bind (.inStore (yields_findVote (fun hf => absurd hf hsafe) ?_))
      change Yields (if v.store.votes.contains id = true then _ else _) _ _ _
      by_cases hvoted : v.store.votes.contains id = true
      · rw [if_pos hvoted, if_pos hvoted]
        exact .pure ⟨rfl, rfl, hledger⟩
      rw [if_neg hvoted, if_neg hvoted, Poll.weightOf_onLedger]
      refine .bind (.inLedger ((Yields.returned (hweigh p id.voter) hledger).mono ?_ ?_))
      · rintro eligibility v₁ ⟨hanswer, hstore, hledger₁⟩
        rw [hanswer]
        cases eligibility with
        | ineligible reason => exact .pure ⟨rfl, hstore, hledger₁⟩
        | eligible weight =>
          refine .bind (.outcome (yields_insertVote (fun hf => absurd hf hsafe) ?_ ?_))
          · rw [hstore]
            exact Table.contains_eq_false_iff.1 (Bool.not_eq_true _ ▸ hvoted)
          · exact .pure ⟨rfl, by rw [hstore]; rfl, hledger₁⟩
      · rintro e v₁ ⟨hanswer, hstore, hledger₁⟩
        rw [hanswer]
        exact ⟨rfl, hstore, hledger₁⟩

end

/-! ## Registered polls -/

namespace PollRequest

open RejectReason

/-- What a request says on who may vote and what a vote counts. -/
def criteria (r : PollRequest) : VoterCriteria := ⟨r.model, r.holding, r.floor, r.minBalance⟩

/-- What speaks against a vote on the poll of a request as far as the poll, the voter and the height
show it. -/
def refusals (status : PollStatus) (voter : AccountId) (height : Height) (r : PollRequest) :
    List RejectReason :=
  reportIf (status ≠ .pending) alreadyResolved ++
  reportIf (r.finishHeight ≤ height) (tooLate r.finishHeight) ++
  reportIf (r.whitelist ≠ [] ∧ voter ∉ r.whitelist) notWhitelisted

/-- What speaks against the vote of an account with these balances on the poll of a request, in the
order in which it is looked for. -/
def objections (status : PollStatus) (votes : Table VoteKey Vote) (balance : Holding → Amount)
    (voter : AccountId) (height : Height) (r : PollRequest) : List RejectReason :=
  r.refusals status voter height ++
  reportIf (votes.contains ⟨r.transaction, voter⟩ = true) alreadyVoted ++
  (r.criteria.shortfalls balance).map .ineligible

/-- An account with these balances may vote on the poll of a request, as it stands. -/
structure MayVote (status : PollStatus) (votes : Table VoteKey Vote) (balance : Holding → Amount)
    (voter : AccountId) (height : Height) (r : PollRequest) : Prop where
  /-- The poll is undecided. -/
  pending : status = .pending
  /-- The block is below the height at which it is decided. -/
  early : height < r.finishHeight
  /-- The account is listed, where accounts are. -/
  listed : r.whitelist = [] ∨ voter ∈ r.whitelist
  /-- It has not voted on the poll. -/
  new : votes.find? ⟨r.transaction, voter⟩ = none
  /-- Its balances give it a voice. -/
  eligible : r.criteria.Eligible balance

variable {r : PollRequest} {status : PollStatus} {votes : Table VoteKey Vote}
  {balance : Holding → Amount} {voter : AccountId} {height : Height}

/-- An account may vote if nothing speaks against it. -/
theorem objections_eq_nil_iff : r.objections status votes balance voter height = [] ↔
    r.MayVote status votes balance voter height := by
  have hlisted : r.whitelist = [] ∨ voter ∈ r.whitelist ↔
      ¬ (r.whitelist ≠ [] ∧ voter ∉ r.whitelist) := by
    by_cases hempty : r.whitelist = [] <;> simp [hempty]
  simp only [objections, refusals, List.append_eq_nil_iff, reportIf_eq_nil_iff, List.map_eq_nil_iff,
    VoterCriteria.shortfalls_eq_nil_iff, ← hlisted, Classical.not_not, UInt64.not_le,
    Bool.not_eq_true, Table.contains_eq_false_iff]
  constructor
  · rintro ⟨⟨⟨⟨hpending, hearly⟩, hlisted⟩, hnew⟩, heligible⟩
    exact ⟨hpending, hearly, hlisted, hnew, heligible⟩
  · exact fun h => ⟨⟨⟨⟨h.pending, h.early⟩, h.listed⟩, h.new⟩, h.eligible⟩

/-- The poll of a request admits whom the request lists. -/
theorem admits_toPoll (created : Height) : (r.toPoll created).admits voter = true ↔
    r.whitelist = [] ∨ voter ∈ r.whitelist := by
  have hperm : (r.toPoll created).whitelist.Perm r.whitelist := sortBy_perm _ _
  have hempty : (r.toPoll created).whitelist = [] ↔ r.whitelist = [] :=
    ⟨fun h => (h ▸ hperm).symm.eq_nil, fun h => (h ▸ hperm).eq_nil⟩
  have hmem : bisectContains (r.toPoll created).whitelist voter = true ↔
      voter ∈ (r.toPoll created).whitelist :=
    bisectContains_iff (pairwise_sortBy compare r.whitelist)
  rw [Poll.admits, Bool.or_eq_true, List.isEmpty_iff, hempty, hmem, hperm.mem_iff]

/-- Whether a poll that finishes and admits as the request says refuses a vote, is seen from the
request. -/
theorem refusal_eq {p : Poll} (hfinish : p.finishHeight = r.finishHeight)
    (hadmits : p.admits voter = true ↔ r.whitelist = [] ∨ voter ∈ r.whitelist) :
    p.refusal voter height = (r.refusals p.status voter height).head? := by
  have hbarred : p.admits voter = false ↔ r.whitelist ≠ [] ∧ voter ∉ r.whitelist := by
    rw [← Bool.not_eq_true, hadmits, not_or]
  unfold Poll.refusal refusals reportIf
  simp only [Poll.isPending, Bool.not_eq_true', decide_eq_false_iff_not, hbarred, hfinish]
  split
  · rfl
  · split
    · rfl
    · split <;> rfl

/-- The answer to a vote on the poll of a request, which may have been decided or undone since, is
the first objection. -/
theorem answerTo_toPoll {s : MemoryStore} {created : Height} {tally : Amount}
    (hstored : s.polls.find? r.transaction = some { r.toPoll created with status, tally })
    (balances : AccountId → Holding → Amount) (voter : AccountId) (height : Height) :
    s.answerTo (fun p voter => .ok (p.criteria.eligibility (balances voter))) height
        ⟨r.transaction, voter⟩ =
      .ok (match r.objections status s.votes (balances voter) voter height with
        | [] => .accepted (r.criteria.voice (balances voter))
        | reason :: _ => .rejected reason) := by
  have hrefusal : ({ r.toPoll created with status, tally } : Poll).refusal voter height
      = (r.refusals status voter height).head? := refusal_eq rfl (admits_toPoll created)
  have hcriteria : ({ r.toPoll created with status, tally } : Poll).criteria = r.criteria := rfl
  unfold MemoryStore.answerTo objections
  rw [hstored]
  dsimp only
  rw [hrefusal, hcriteria]
  cases r.refusals status voter height with
  | cons reason refusals => rfl
  | nil =>
    unfold reportIf
    dsimp only [List.head?_nil]
    split
    · rfl
    · unfold VoterCriteria.eligibility Eligibility.unless
      cases r.criteria.shortfalls (balances voter) <;> rfl

end PollRequest

section

variable [PollStore S] [VoteStore S] [FaithfulStore S] [Ledger L] {Λ : L → Prop}

/-- **Votes are admitted exactly.**  Over every store that does not fail: of every poll that the
registration of a request has stored, and that may have been decided or undone since, every store of
votes, every ledger that answers these balances at a height, and every voter, casting a vote in the
block at that height gives an answer, and

* the vote is accepted exactly if the voter may vote, as the request says it;
* then it counts one or the balance of the holding that weighs the votes, and the store gains this
  vote and nothing else;
* otherwise the reason is that of the first condition that fails, and the store is as it was. -/
theorem votes_admitted_exactly (hsafe : ¬ FaithfulStore.fallible S) {params : Params}
    {r : PollRequest} {created : Height} {w₀ w₁ : World S L} {p : Poll}
    (hregistered : (register params r created).start w₀ = (.ok p, w₁)) {height : Height}
    {balances : AccountId → Holding → Amount}
    (hbalances : ∀ account holding,
      (Ledger.balanceOf account holding height).Returns Λ (.ok (balances account holding)))
    {w : World S L} (hledger : Λ w.ledger) {status : PollStatus} {tally : Amount}
    (hstored : w.view.store.polls.find? r.transaction = some { p with status, tally })
    (voter : AccountId) :
    let s := w.view.store
    ∃ o w', (castVote r.transaction voter height).start w = (.ok o, w') ∧
      ((∃ weight, o = .accepted weight) ↔
        r.MayVote status s.votes (balances voter) voter height) ∧
      (∀ weight, o = .accepted weight → weight = r.criteria.voice (balances voter) ∧
        let x : Vote := { poll := r.transaction, voter, weight, height }
        w'.view.store = { s with votes := s.votes.insert x.id x }) ∧
      ∀ reason, o = .rejected reason → w'.view.store = s ∧
        (r.objections status s.votes (balances voter) voter height).head? = some reason := by
  intro s
  have hany : QueriesKeep (fun _ : L => True) :=
    ⟨fun _ _ _ _ _ => trivial, fun _ _ _ _ => trivial⟩
  have hpoll : p = r.toPoll created :=
    ((register_yields hany trivial params r created).of_ok hregistered).1
  rw [hpoll] at hstored
  -- Registering may have been done with any ledger; casting needs one that answers.
  have hweigh : ∀ (p : Poll) voter, (p.weightOf voter height : Action L _ _).Returns Λ
      (.ok (p.criteria.eligibility (balances voter))) :=
    fun p voter => VoterCriteria.weight_returns (hbalances voter) p.criteria
  have hcast := castVote_answers (v := w.view) hsafe hweigh hledger ⟨r.transaction, voter⟩
  have hanswer := PollRequest.answerTo_toPoll hstored balances voter height
  rcases hrun : (castVote r.transaction voter height).start w with ⟨e | o, w'⟩
  · exact absurd ((hcast.of_error hrun).1.symm.trans hanswer) (by simp)
  · obtain ⟨ho, hstore, -⟩ := hcast.of_ok hrun
    have ho' := Except.ok.inj (ho.symm.trans hanswer)
    refine ⟨o, w', rfl, ?_⟩
    rw [← PollRequest.objections_eq_nil_iff]
    cases hobjections : r.objections status s.votes (balances voter) voter height with
    | nil =>
      rw [hobjections] at ho'
      cases ho'
      refine ⟨⟨fun _ => rfl, fun _ => ⟨_, rfl⟩⟩, ?_, fun reason heq => by cases heq⟩
      rintro weight ⟨⟩
      exact ⟨rfl, hstore⟩
    | cons first others =>
      rw [hobjections] at ho'
      cases ho'
      refine ⟨⟨?_, fun heq => by cases heq⟩, ?_, ?_⟩
      · rintro ⟨weight, ⟨⟩⟩
      · rintro weight ⟨⟩
      · rintro reason ⟨⟩
        exact ⟨hstore, rfl⟩

end

/-- Accounts five and eight have thirty of the asset; of the currency, five has enough and eight has
not. -/
def SimulatedLedger.ofHolders : SimulatedLedger :=
  let asset : Holding := ⟨.asset, some ⟨3⟩⟩
  let currency : Holding := ⟨.currency, some ⟨4⟩⟩
  (empty.addHolding .asset ⟨3⟩).addHolding .currency ⟨4⟩
    |>.setBalance ⟨5⟩ asset 0 30 |>.setBalance ⟨5⟩ currency 0 50
    |>.setBalance ⟨8⟩ asset 0 30 |>.setBalance ⟨8⟩ currency 0 49

/-- On a poll of listed accounts, the vote of the one that has enough counts its balance of the
asset; the vote of the other one is refused for what it is missing. -/
theorem votes_admitted_exactly_among_holders :
    let r := PollRequest.amongHolders 10 [⟨8⟩, ⟨2⟩, ⟨5⟩]
    let ledger := SimulatedLedger.ofHolders
    let w₀ : World MemoryStore SimulatedLedger := ⟨.empty, ledger⟩
    let w : World MemoryStore SimulatedLedger := ⟨.holding [r.toPoll 1] [], ledger⟩
    let balances := fun account holding => (ledger.balanceOf account holding 9).toOption.getD 0
    let x : Vote := ⟨.ones, ⟨5⟩, 30, 9⟩
    ((register .standard r 1).start w₀).1 = .ok (r.toPoll 1) ∧
    r.MayVote .pending ∅ (balances ⟨5⟩) ⟨5⟩ 9 ∧
    (∃ w', (castVote .ones ⟨5⟩ 9).start w = (.ok (.accepted 30), w') ∧
      w'.store = { w.store with votes := (∅ : Table _ _).insert x.id x }) ∧
    ∃ w', (castVote .ones ⟨8⟩ 9).start w
        = (.ok (.rejected (.ineligible (.belowMinBalance 49 50))), w') ∧ w'.store = w.store := by
  intro r ledger w₀ w balances x
  have hregistered : ((register .standard r 1).start w₀).1 = .ok (r.toPoll 1) := by
    decide +kernel
  have hbalances : ∀ account holding, (Ledger.balanceOf account holding 9).Returns (· = ledger)
      (.ok (balances account holding)) := by
    rintro account holding _ rfl
    exact ⟨rfl, rfl⟩
  have hstored : w.view.store.polls.find? r.transaction
      = some { r.toPoll 1 with status := .pending, tally := 0 } := rfl
  have hcast := votes_admitted_exactly (w := w) (fun h : False => h) (Prod.ext hregistered rfl)
    hbalances rfl hstored
  have hweight : ((castVote .ones ⟨5⟩ 9).start w).1 = .ok (.accepted 30) := by decide +kernel
  have hreason : ((castVote .ones ⟨8⟩ 9).start w).1
      = .ok (.rejected (.ineligible (.belowMinBalance 49 50))) := by
    decide +kernel
  obtain ⟨o, w', hrun, hmay, haccepted, -⟩ := hcast ⟨5⟩
  cases (congrArg Prod.fst hrun).symm.trans hweight
  obtain ⟨o, w'', hrun', -, -, hrefused⟩ := hcast ⟨8⟩
  cases (congrArg Prod.fst hrun').symm.trans hreason
  exact ⟨hregistered, hmay.1 ⟨30, rfl⟩, ⟨w', hrun, (haccepted 30 rfl).2⟩, w'', hrun',
    (hrefused _ rfl).1⟩

end Finality
