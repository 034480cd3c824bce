import Finality.Ledger.Simulated
import Finality.Proofs.Engine.Registration

/-!
# Which requests are accepted

A poll is registered exactly if its request is *well-formed*, and a request that is not is refused
with the error of the first rule that it breaks.  The rules look at the request, at the assets and
currencies that exist and at the polls that are stored, so the result is about every store whose
polls can be read and every ledger that says what exists.

* `PollRequest.WellFormed` — what a request must be like, all rules at once.
* `PollRequest.violations` — the errors of the rules that a request breaks, in the order in which
  they are checked.  `violations_eq_nil_iff`: a well-formed request breaks none.
* `checkFinishHeight_eq`, `checkModel_eq`, ... — each check reports the first violation of its own
  part of that list (`verdict`).
* `Reports` — an action that reports the first of some violations.  Actions one after another report
  the first of all of theirs (`Reports.bind`, `Reports.forM`), hence `validate_reports`.
* `registration_accepts_exactly_wellFormed` — the result.
-/

namespace Finality

variable {S L : Type}

/-! ## Rules -/

/-- What is to be reported of a rule: nothing, unless it is broken. -/
def reportIf {α : Type} (broken : Prop) [Decidable broken] (report : α) : List α :=
  if broken then [report] else []

@[simp] theorem reportIf_eq_nil_iff {α : Type} {broken : Prop} [Decidable broken] {report : α} :
    reportIf broken report = [] ↔ ¬ broken := by
  unfold reportIf
  split <;> simp [*]

namespace PollRequest

open RegistrationError

/-- Violations of the rules on when a poll finishes. -/
def finishViolations (params : Params) (height : Height) (r : PollRequest) :
    List RegistrationError :=
  let max := params.maxFinishHeight height
  reportIf (r.finishHeight ≤ height) (finishHeightNotAhead r.finishHeight height) ++
  reportIf (max < r.finishHeight) (finishHeightTooFar r.finishHeight max)

/-- Violations of the rules on what goes with a voting model. -/
def modelViolations (r : PollRequest) : List RegistrationError :=
  reportIf (r.model.isWeighted = true ∧ r.holding = none) (missingHolding r.model) ++
  reportIf (r.model.isWeighted = false ∧ r.holding ≠ none) (unexpectedHolding r.model) ++
  reportIf (r.model ≠ .transactionApproval ∧ (r.quorum = none ∨ r.quorum = some 0))
    (missingQuorum r.model) ++
  reportIf (r.model = .transactionApproval ∧ r.quorum ≠ none) unexpectedQuorum ++
  reportIf (r.floorFits = false) (invalidMinBalance r.model) ++
  reportIf (r.model = .none ∧ r.whitelist = []) (missingWhitelist r.model) ++
  reportIf (r.model ≠ .transactionApproval ∧ r.links ≠ []) unexpectedLinks

/-- Violations of the rule that the assets and currencies named exist. -/
def holdingViolations (known : HoldingKind → HoldingId → Bool) (r : PollRequest) :
    List RegistrationError :=
  r.namedHoldings.flatMap fun (kind, id) =>
    reportIf (known kind id = false) (unknownHolding kind id)

/-- Violations of the rules on whitelists. -/
def whitelistViolations (params : Params) (r : PollRequest) : List RegistrationError :=
  reportIf (params.maxWhitelistSize.toNat < r.whitelist.length)
    (whitelistTooLarge (UInt64.ofNat r.whitelist.length) params.maxWhitelistSize) ++
  reportIf (¬ r.whitelist.Nodup) duplicateWhitelistEntry

/-- Violations of the rules on the number of links. -/
def linkCountViolations (params : Params) (r : PollRequest) : List RegistrationError :=
  reportIf (r.links = []) missingLinks ++
  reportIf (params.maxLinks.toNat < r.links.length)
    (tooManyLinks (UInt64.ofNat r.links.length) params.maxLinks) ++
  reportIf (¬ r.links.Nodup) duplicateLink

/-- Violations of the rules on the links of polls that are decided by them. -/
def linkViolations (params : Params) (s : MemoryStore) (r : PollRequest) :
    List RegistrationError :=
  if r.model = .transactionApproval then
    r.linkCountViolations params ++
      r.links.flatMap fun link => reportIf (s.polls.contains link = false) (linkNotPhased link)
  else []

/-- The errors of all the rules that a request for a poll of the block at a height breaks, in the
order in which the rules are checked. -/
def violations (params : Params) (height : Height) (known : HoldingKind → HoldingId → Bool)
    (s : MemoryStore) (r : PollRequest) : List RegistrationError :=
  r.finishViolations params height ++ r.modelViolations ++ r.holdingViolations known ++
    r.whitelistViolations params ++ r.linkViolations params s ++
    reportIf (s.polls.contains r.transaction = true) (duplicate r.transaction)

end PollRequest

/-! ## Well-formed requests -/

namespace PollRequest

/-- The poll of a request finishes above the height of its block and within the horizon, which ends
with the greatest height at the latest. -/
structure FinishesInTime (params : Params) (height : Height) (r : PollRequest) : Prop where
  /-- It finishes ahead. -/
  ahead : height < r.finishHeight
  /-- It does not finish too far ahead. -/
  within : r.finishHeight.toNat ≤
    min (height.toNat + params.maxFinishHorizon.toNat) (UInt64.size - 1)

/-- What a request gives is what its voting model takes. -/
structure FitsModel (r : PollRequest) : Prop where
  /-- A holding is given exactly where balances are weighed. -/
  holding : r.holding ≠ none ↔ r.model.isWeighted = true
  /-- A poll decided by links has no quorum. -/
  noQuorum : r.model = .transactionApproval → r.quorum = none
  /-- Every other poll has one, of at least one. -/
  quorum : r.model ≠ .transactionApproval → ∃ quorum, r.quorum = some quorum ∧ 1 ≤ quorum
  /-- Where every vote counts one, whoever votes, no balance is asked for. -/
  noFloor : r.model = .none ∨ r.model = .transactionApproval → r.floor = .none ∧ r.minBalance = 0
  /-- Where balances are weighed, a least balance is one of something. -/
  floor : r.model.isWeighted = true → r.minBalance = 0 ∨ r.floor ≠ .none
  /-- If only listed accounts vote, there are some. -/
  listed : r.model = .none → r.whitelist ≠ []
  /-- Only a poll decided by links has any. -/
  unlinked : r.model ≠ .transactionApproval → r.links = []

/-- The links of a request lead to polls; there are some, and not too many. -/
structure LinksFit (params : Params) (s : MemoryStore) (r : PollRequest) : Prop where
  /-- There are some. -/
  least : 1 ≤ r.links.length
  /-- There are not too many. -/
  most : r.links.length ≤ params.maxLinks.toNat
  /-- None is given twice. -/
  nodup : r.links.Nodup
  /-- Each transaction has a poll. -/
  phased : ∀ link ∈ r.links, ∃ p, s.polls.find? link = some p

/-- What a request for a poll of the block at a height must be like, given the assets and currencies
that are known and the polls that are stored. -/
structure WellFormed (params : Params) (height : Height) (known : HoldingKind → HoldingId → Bool)
    (s : MemoryStore) (r : PollRequest) : Prop where
  /-- The poll finishes ahead, and not too far. -/
  finish : r.FinishesInTime params height
  /-- Holding, quorum, floor, whitelist and links are those that the model takes. -/
  model : r.FitsModel
  /-- The holding that weighs the votes exists, and so does that of the least balance. -/
  known : ∀ kind id, r.model.holdingKind? = some kind ∧ r.holding = some id ∨
    r.floor.holding? = some ⟨kind, some id⟩ → known kind id = true
  /-- The whitelist is small enough. -/
  most : r.whitelist.length ≤ params.maxWhitelistSize.toNat
  /-- It names no account twice. -/
  nodup : r.whitelist.Nodup
  /-- The links of a poll that is decided by them lead to polls. -/
  links : r.model = .transactionApproval → r.LinksFit params s
  /-- The transaction has no poll yet. -/
  new : s.polls.find? r.transaction = none

end PollRequest

/-- The horizon ends with the greatest height at the latest. -/
theorem Params.toNat_maxFinishHeight (params : Params) (height : Height) :
    (params.maxFinishHeight height).toNat
      = min (height.toNat + params.maxFinishHorizon.toNat) (UInt64.size - 1) := by
  unfold maxFinishHeight
  dsimp only
  split
  · rename_i hfits
    rw [UInt64.toNat_add, Nat.mod_eq_of_lt hfits]
    omega
  · rename_i hfits
    have hmax : (UInt64.ofNat (UInt64.size - 1)).toNat = UInt64.size - 1 := by decide
    rw [hmax]
    omega

namespace PollRequest

variable {params : Params} {height : Height} {known : HoldingKind → HoldingId → Bool}
  {s : MemoryStore} {r : PollRequest}

theorem finishViolations_eq_nil_iff :
    r.finishViolations params height = [] ↔ r.FinishesInTime params height := by
  have hwithin : r.finishHeight ≤ params.maxFinishHeight height ↔ r.finishHeight.toNat ≤
      min (height.toNat + params.maxFinishHorizon.toNat) (UInt64.size - 1) := by
    rw [UInt64.le_iff_toNat_le, params.toNat_maxFinishHeight]
  simp only [finishViolations, List.append_eq_nil_iff, reportIf_eq_nil_iff, UInt64.not_le,
    UInt64.not_lt, hwithin]
  exact ⟨fun h => ⟨h.1, h.2⟩, fun h => ⟨h.ahead, h.within⟩⟩

/-- A floor fits if it is none where votes count one whoever votes, and names a balance for every
amount where balances are weighed. -/
theorem floorFits_iff : r.floorFits = true ↔
    (r.model = .none ∨ r.model = .transactionApproval → r.floor = .none ∧ r.minBalance = 0) ∧
    (r.model.isWeighted = true → r.minBalance = 0 ∨ r.floor ≠ .none) := by
  unfold floorFits
  cases r.model <;> simp [VotingModel.isWeighted, or_comm]

theorem modelViolations_eq_nil_iff : r.modelViolations = [] ↔ r.FitsModel := by
  have hholding : (r.holding ≠ none ↔ r.model.isWeighted = true) ↔
      ¬ (r.model.isWeighted = true ∧ r.holding = none) ∧
        ¬ (r.model.isWeighted = false ∧ r.holding ≠ none) := by
    cases r.model.isWeighted <;> simp
  have hquorum : (∃ quorum, r.quorum = some quorum ∧ 1 ≤ quorum) ↔
      ¬ (r.quorum = none ∨ r.quorum = some 0) := by
    cases r.quorum with
    | none => simp
    | some quorum =>
      have hpos : 1 ≤ quorum ↔ quorum ≠ 0 := by
        rw [UInt64.le_iff_toNat_le, ne_eq, ← UInt64.toNat_inj]
        exact Nat.one_le_iff_ne_zero
      simp [hpos]
  simp only [modelViolations, List.append_eq_nil_iff, reportIf_eq_nil_iff, not_and,
    Classical.not_not, Bool.not_eq_false, floorFits_iff]
  constructor
  · rintro ⟨⟨⟨⟨⟨⟨hmissing, hextra⟩, hquorum'⟩, hnone⟩, hfloor⟩, hlisted⟩, hlinks⟩
    exact ⟨hholding.2 ⟨not_and.2 hmissing, by simpa using hextra⟩, hnone,
      fun hmodel => hquorum.2 (hquorum' hmodel), hfloor.1, hfloor.2, hlisted, hlinks⟩
  · intro h
    obtain ⟨hmissing, hextra⟩ := hholding.1 h.holding
    exact ⟨⟨⟨⟨⟨⟨not_and.1 hmissing, by simpa using hextra⟩,
      fun hmodel => hquorum.1 (h.quorum hmodel)⟩, h.noQuorum⟩, h.noFloor, h.floor⟩, h.listed⟩,
      h.unlinked⟩

theorem mem_namedHoldings {kind : HoldingKind} {id : HoldingId} : (kind, id) ∈ r.namedHoldings ↔
    r.model.holdingKind? = some kind ∧ r.holding = some id ∨
      r.floor.holding? = some ⟨kind, some id⟩ := by
  unfold namedHoldings
  cases r.model.holdingKind? <;> cases r.holding <;> rcases r.floor.holding? with _ | ⟨_, _ | _⟩ <;>
    simp [eq_comm]

theorem holdingViolations_eq_nil_iff : r.holdingViolations known = [] ↔
    ∀ kind id, r.model.holdingKind? = some kind ∧ r.holding = some id ∨
      r.floor.holding? = some ⟨kind, some id⟩ → known kind id = true := by
  simp [holdingViolations, ← mem_namedHoldings]

theorem linkViolations_eq_nil_iff : r.linkViolations params s = [] ↔
    (r.model = .transactionApproval → r.LinksFit params s) := by
  unfold linkViolations
  split
  · rename_i hmodel
    simp only [linkCountViolations, List.append_eq_nil_iff, reportIf_eq_nil_iff,
      Classical.not_not, Nat.not_lt, List.flatMap_eq_nil_iff, Bool.not_eq_false,
      Table.contains_iff, hmodel, true_imp_iff]
    constructor
    · rintro ⟨⟨⟨hleast, hmost⟩, hnodup⟩, hphased⟩
      exact ⟨List.length_pos_iff.2 hleast, hmost, hnodup, hphased⟩
    · exact fun h => ⟨⟨⟨List.length_pos_iff.1 h.least, h.most⟩, h.nodup⟩, h.phased⟩
  · rename_i hmodel
    simp [hmodel]

/-- **A well-formed request violates nothing**, and no other does not. -/
theorem violations_eq_nil_iff :
    r.violations params height known s = [] ↔ r.WellFormed params height known s := by
  simp only [violations, whitelistViolations, List.append_eq_nil_iff, finishViolations_eq_nil_iff,
    modelViolations_eq_nil_iff, holdingViolations_eq_nil_iff, linkViolations_eq_nil_iff,
    reportIf_eq_nil_iff, Nat.not_lt, Classical.not_not, Bool.not_eq_true,
    Table.contains_eq_false_iff]
  constructor
  · rintro ⟨⟨⟨⟨⟨hfinish, hmodel⟩, hknown⟩, hmost, hnodup⟩, hlinks⟩, hnew⟩
    exact ⟨hfinish, hmodel, hknown, hmost, hnodup, hlinks, hnew⟩
  · intro h
    exact ⟨⟨⟨⟨⟨h.finish, h.model⟩, h.known⟩, h.most, h.nodup⟩, h.links⟩, h.new⟩

end PollRequest

/-! ## Checks -/

/-- A list of violations as the result of a check: the first one is the error. -/
def verdict : List RegistrationError → Except RegistrationError Unit
  | [] => .ok ()
  | e :: _ => .error e

/-- Checks one after another report the first violation of all. -/
theorem verdict_append (es fs : List RegistrationError) :
    verdict (es ++ fs) = verdict es >>= fun _ => verdict fs := by
  cases es <;> rfl

/-- A check in front of others, as the report of its rule. -/
theorem verdict_reportIf_bind (broken : Prop) [Decidable broken] (e : RegistrationError)
    (rest : Except RegistrationError Unit) :
    (if broken then (do throw e; rest) else rest)
      = verdict (reportIf broken e) >>= fun _ => rest := by
  unfold reportIf
  split <;> rfl

/-- A check at the end, as the report of its rule. -/
theorem verdict_reportIf (broken : Prop) [Decidable broken] (e : RegistrationError) :
    (if broken then throw e else pure ()) = verdict (reportIf broken e) := by
  unfold reportIf
  split <;> rfl

namespace PollRequest

open RegistrationError

theorem checkFinishHeight_eq (params : Params) (height : Height) (r : PollRequest) :
    r.checkFinishHeight params height = verdict (r.finishViolations params height) := by
  unfold checkFinishHeight finishViolations reportIf
  dsimp only
  split
  · rfl
  · split <;> rfl

theorem checkHolding_eq (r : PollRequest) : r.checkHolding = verdict (
    reportIf (r.model.isWeighted = true ∧ r.holding = none) (missingHolding r.model) ++
    reportIf (r.model.isWeighted = false ∧ r.holding ≠ none) (unexpectedHolding r.model)) := by
  unfold checkHolding reportIf
  cases r.model.isWeighted <;> cases r.holding <;> rfl

theorem checkQuorum_eq (r : PollRequest) : r.checkQuorum = verdict (
    reportIf (r.model ≠ .transactionApproval ∧ (r.quorum = none ∨ r.quorum = some 0))
      (missingQuorum r.model) ++
    reportIf (r.model = .transactionApproval ∧ r.quorum ≠ none) unexpectedQuorum) := by
  unfold checkQuorum reportIf
  cases r.model <;> cases r.quorum with
  | none => rfl
  | some quorum => by_cases hzero : quorum = 0 <;> simp [verdict, hzero]

theorem checkModel_eq (r : PollRequest) : r.checkModel = verdict r.modelViolations := by
  rw [checkModel, checkHolding_eq, checkQuorum_eq, modelViolations]
  simp only [Bool.not_eq_true', verdict_reportIf, verdict_reportIf_bind, verdict_append, bind_assoc]

theorem checkWhitelist_eq (params : Params) (r : PollRequest) :
    r.checkWhitelist params = verdict (r.whitelistViolations params) := by
  unfold checkWhitelist whitelistViolations reportIf
  split
  · rfl
  · split <;> rfl

theorem checkLinkCount_eq (params : Params) (r : PollRequest) :
    r.checkLinkCount params = verdict (r.linkCountViolations params) := by
  unfold checkLinkCount linkCountViolations reportIf
  split
  · rfl
  · split
    · rfl
    · split <;> rfl

end PollRequest

/-! ## Stores and ledgers that can be read -/

/-- Looking up a poll does not fail, whatever other calls of the store do. -/
def ReadsPolls (S : Type) [PollStore S] [VoteStore S] [FaithfulStore S] : Prop :=
  ∀ key, Mirrors (FaithfulStore.contents (S := S)) False (PollStore.findPoll key)
    (PollStore.findPoll key)

/-- In any of these states, the ledger answers that these assets and currencies exist, and is in one
of them again. -/
def KnowsHoldings [Ledger L] (Λ : L → Prop) (known : HoldingKind → HoldingId → Bool) : Prop :=
  ∀ kind id, (Ledger.holdingExists kind id).Returns Λ (.ok (known kind id))

section

variable [PollStore S] [VoteStore S] [FaithfulStore S]

/-- From every world with this store and a ledger in one of these states, the action goes through if
there are no violations, and otherwise reports the first.  It changes nothing in the store. -/
def Reports (x : Action (World S L) EngineError Unit) (s : MemoryStore) (Λ : L → Prop)
    (violations : List RegistrationError) : Prop :=
  ∀ v : World MemoryStore L, v.store = s → Λ v.ledger → Yields x v
    (fun _ v' => v'.store = s ∧ Λ v'.ledger ∧ violations = [])
    (fun e v' => v'.store = s ∧ Λ v'.ledger ∧
      ∃ first, violations.head? = some first ∧ e = .registration first)

namespace Reports

variable {s : MemoryStore} {Λ : L → Prop} {violations violations' : List RegistrationError}

theorem require {check : Except RegistrationError Unit} (h : check = verdict violations) :
    Reports (S := S) (Finality.require check) s Λ violations := by
  rintro v hstore hledger
  cases violations with
  | nil =>
    rw [h]
    exact .pure ⟨hstore, hledger, rfl⟩
  | cons first rest =>
    rw [h]
    exact .throw ⟨hstore, hledger, first, rfl, rfl⟩

/-- The first violation of two actions is one of the first action, if that has any. -/
theorem bind {x y : Action (World S L) EngineError Unit} (hx : Reports x s Λ violations)
    (hy : Reports y s Λ violations') :
    Reports (x >>= fun _ => y) s Λ (violations ++ violations') := by
  intro v hstore hledger
  refine .bind ((hx v hstore hledger).mono ?_ ?_)
  · rintro _ v' ⟨hstore', hledger', rfl⟩
    exact hy v' hstore' hledger'
  · rintro e v' ⟨hstore', hledger', first, hfirst, rfl⟩
    exact ⟨hstore', hledger', first, by rw [List.head?_append, hfirst]; rfl, rfl⟩

theorem forM {α : Type} {f : α → Action (World S L) EngineError Unit}
    {report : α → List RegistrationError} (h : ∀ a, Reports (f a) s Λ (report a)) (as : List α) :
    Reports (as.forM f) s Λ (as.flatMap report) := by
  induction as with
  | nil => exact fun v hstore hledger => .pure ⟨hstore, hledger, rfl⟩
  | cons a as ih => exact (h a).bind ih

end Reports

variable {Λ : L → Prop} {known : HoldingKind → HoldingId → Bool} {s : MemoryStore}

theorem checkHoldingsExist_reports [Ledger L] (hknown : KnowsHoldings Λ known) (r : PollRequest) :
    Reports (S := S) (checkHoldingsExist r) s Λ (r.holdingViolations known) := by
  refine Reports.forM (fun (kind, id) v hstore hledger => ?_) _
  refine .bind (.inLedger ((Yields.returned (hknown kind id) hledger).mono ?_ fun _ _ he => ?_))
  · rintro found v' ⟨hfound, hstore', hledger'⟩
    cases hfound
    dsimp only [reportIf]
    cases known kind id with
    | true => exact .pure ⟨hstore'.trans hstore, hledger', rfl⟩
    | false => exact .throw ⟨hstore'.trans hstore, hledger', _, rfl, rfl⟩
  · cases he.1

variable (hreads : ReadsPolls S)
include hreads

/-- Looking up a poll answers what the store shows. -/
theorem ReadsPolls.yields {v : World MemoryStore L} {key : Hash}
    {Q : Option Poll → World MemoryStore L → Prop} {E : EngineError → World MemoryStore L → Prop}
    (h : Q (v.store.polls.find? key) v) :
    Yields (S := S) (inStore (PollStore.findPoll key)) v Q E :=
  .inStore (.store (hreads key) h False.elim)

theorem checkLinks_reports (params : Params) (r : PollRequest) :
    Reports (L := L) (checkLinks params r : Action (World S L) EngineError Unit) s Λ
      (r.linkViolations params s) := by
  unfold checkLinks PollRequest.linkViolations
  split
  · refine (Reports.require (r.checkLinkCount_eq params)).bind
      (.forM (fun link v hstore hledger => ?_) _)
    refine .bind (hreads.yields ?_)
    rw [hstore]
    unfold reportIf Table.contains
    cases s.polls.find? link with
    | none => exact .throw ⟨hstore, hledger, _, rfl, rfl⟩
    | some p => exact .pure ⟨hstore, hledger, rfl⟩
  · exact fun v hstore hledger => .pure ⟨hstore, hledger, rfl⟩

/-- **Checking a request** reports the first of all rules that it breaks. -/
theorem validate_reports [Ledger L] (hknown : KnowsHoldings Λ known) (params : Params)
    (r : PollRequest) (height : Height) :
    Reports (S := S) (validate params r height) s Λ (r.violations params height known s) := by
  have hnew : Reports (S := S) (L := L) (do
      if (← inStore (PollStore.findPoll r.transaction)).isSome then
        throw (EngineError.registration (.duplicate r.transaction))) s Λ
      (reportIf (s.polls.contains r.transaction = true) (.duplicate r.transaction)) := by
    intro v hstore hledger
    refine .bind (hreads.yields ?_)
    rw [hstore]
    unfold reportIf Table.contains
    cases s.polls.find? r.transaction with
    | none => exact .pure ⟨hstore, hledger, rfl⟩
    | some p => exact .throw ⟨hstore, hledger, _, rfl, rfl⟩
  unfold PollRequest.violations
  simp only [List.append_assoc]
  exact (Reports.require (r.checkFinishHeight_eq params height)).bind <|
    (Reports.require r.checkModel_eq).bind <| (checkHoldingsExist_reports hknown r).bind <|
    (Reports.require (r.checkWhitelist_eq params)).bind <|
    (checkLinks_reports hreads params r).bind hnew

end

/-! ## The poll of a request -/

/-- The request that a poll shows. -/
def Poll.asRequest (p : Poll) : PollRequest :=
  { transaction := p.key
    account := p.account
    finishHeight := p.finishHeight
    model := p.model
    holding := p.holding
    minBalance := p.minBalance
    floor := p.floor
    quorum := p.quorum
    whitelist := p.whitelist
    links := p.links }

/-- The poll is what a request asks for in the block at a height: undecided, and as the request has
it but for the order of the whitelist, which ascends. -/
structure PollRequest.OpenedAs (r : PollRequest) (height : Height) (p : Poll) : Prop where
  /-- It shows the request. -/
  request : p.asRequest = { r with whitelist := p.whitelist }
  /-- Its whitelist names the same accounts. -/
  whitelist : p.whitelist.Perm r.whitelist
  /-- It names them in ascending order. -/
  ascending : p.whitelist.Pairwise fun a b => compare a b = .lt
  /-- It was created at the height. -/
  created : p.createdHeight = height
  /-- It is undecided. -/
  pending : p.status = .pending
  /-- No weight is counted. -/
  tally : p.tally = 0

theorem PollRequest.openedAs_toPoll {r : PollRequest} (hnodup : r.whitelist.Nodup)
    (height : Height) : r.OpenedAs height (r.toPoll height) := by
  have hperm : (sortBy compare r.whitelist).Perm r.whitelist := sortBy_perm _ _
  refine ⟨rfl, hperm, ?_, rfl, rfl, rfl⟩
  have hdistinct : (sortBy compare r.whitelist).Pairwise fun a b => a ≠ b :=
    hperm.nodup_iff.2 hnodup
  refine ((pairwise_sortBy compare r.whitelist).and hdistinct).imp ?_
  rintro a b ⟨hle, hne⟩
  cases hc : compare a b with
  | lt => rfl
  | eq => exact absurd (Std.LawfulEqCmp.eq_of_compare hc) hne
  | gt =>
    rw [hc] at hle
    cases hle

/-! ## The result -/

section

variable [PollStore S] [VoteStore S] [FaithfulStore S] [Ledger L] {Λ : L → Prop}
  {known : HoldingKind → HoldingId → Bool}

/-- Registering stores the poll of a well-formed request.  It reports the first violation of another
one, and the failure of a store that does not take the poll. -/
theorem register_reports (hreads : ReadsPolls S) (hknown : KnowsHoldings Λ known) (params : Params)
    (r : PollRequest) (height : Height) {v : World MemoryStore L} (hledger : Λ v.ledger) :
    Yields (S := S) (register params r height) v
      (fun p v' => p = r.toPoll height ∧ r.WellFormed params height known v.store ∧
        v'.store = { v.store with polls := v.store.polls.insert r.transaction p })
      (fun e v' => v'.store = v.store ∧
        ((∃ first, (r.violations params height known v.store).head? = some first ∧
            e = .registration first) ∨
          r.WellFormed params height known v.store ∧ FaithfulStore.fallible S)) := by
  unfold register
  refine .bind ((validate_reports hreads hknown params r height v rfl hledger).mono ?_
    fun e v' he => ⟨he.1, .inl he.2.2⟩)
  rintro _ v₁ ⟨hstore, -, hnone⟩
  have hformed := PollRequest.violations_eq_nil_iff.1 hnone
  have hnew : v₁.store.polls.find? (r.toPoll height).key = none := by
    rw [hstore]
    exact hformed.new
  refine .bind (.outcome (yields_insertPoll (fun hf e => ?_) hnew ?_))
  · cases e with
    | duplicate what => exact .throw ⟨hstore, .inr ⟨hformed, hf⟩⟩
    | notFound what => exact .throw ⟨hstore, .inr ⟨hformed, hf⟩⟩
    | backend what => exact .throw ⟨hstore, .inr ⟨hformed, hf⟩⟩
    | serialization what => exact .throw ⟨hstore, .inr ⟨hformed, hf⟩⟩
    | corruption what => exact .throw ⟨hstore, .inr ⟨hformed, hf⟩⟩
  · rw [hstore]
    exact .pure ⟨rfl, hformed, rfl⟩

/-- **Registration accepts exactly the well-formed requests.**  For every store whose polls can be
read, every ledger that says what exists, all limits, every request and every height:

* if the store does not fail, the request is accepted exactly if it is well-formed;
* if it is accepted, it is well-formed, and the store gains the poll that it asks for, where there
  was none, and nothing else;
* if it is refused, the store is as it was, and the error is that of the first rule that the request
  breaks, unless it breaks none and it is the store that has not taken the poll. -/
theorem registration_accepts_exactly_wellFormed (hreads : ReadsPolls S)
    (hknown : KnowsHoldings Λ known) (params : Params) (r : PollRequest) (height : Height)
    {w : World S L} (hledger : Λ w.ledger) :
    let store := w.view.store
    let run := (register params r height : Action (World S L) EngineError Poll).start w
    (¬ FaithfulStore.fallible S →
      ((∃ p, run.1 = .ok p) ↔ r.WellFormed params height known store)) ∧
    (∀ p, run.1 = .ok p → r.WellFormed params height known store ∧ r.OpenedAs height p ∧
      store.polls.find? r.transaction = none ∧
      run.2.view.store = { store with polls := store.polls.insert r.transaction p }) ∧
    ∀ e, run.1 = .error e → run.2.view.store = store ∧
      ((∃ first, (r.violations params height known store).head? = some first ∧
          e = .registration first) ∨
        r.WellFormed params height known store ∧ FaithfulStore.fallible S) := by
  intro store run
  have hyields := register_reports hreads hknown params r height (v := w.view) hledger
  have haccepted : ∀ p, run.1 = .ok p → r.WellFormed params height known store ∧
      r.OpenedAs height p ∧ store.polls.find? r.transaction = none ∧
      run.2.view.store = { store with polls := store.polls.insert r.transaction p } := by
    intro p hp
    obtain ⟨rfl, hformed, hstore⟩ := hyields.of_ok (Prod.ext hp rfl)
    exact ⟨hformed, PollRequest.openedAs_toPoll hformed.nodup height, hformed.new, hstore⟩
  have hrefused : ∀ e, run.1 = .error e → run.2.view.store = store ∧
      ((∃ first, (r.violations params height known store).head? = some first ∧
          e = .registration first) ∨
        r.WellFormed params height known store ∧ FaithfulStore.fallible S) :=
    fun e he => hyields.of_error (Prod.ext he rfl)
  refine ⟨fun hsafe => ⟨fun ⟨p, hp⟩ => (haccepted p hp).1, fun hformed => ?_⟩, haccepted, hrefused⟩
  rcases hrun : run.1 with e | p
  · obtain ⟨-, ⟨first, hfirst, -⟩ | ⟨-, hf⟩⟩ := hrefused e hrun
    · rw [PollRequest.violations_eq_nil_iff.2 hformed] at hfirst
      cases hfirst
    · exact absurd hf hsafe
  · exact ⟨p, rfl⟩

end

/-- A poll of listed accounts that are weighed by an asset and need some of a currency. -/
def PollRequest.amongHolders (finishHeight : Height) (whitelist : List AccountId) : PollRequest :=
  { transaction := .ones, account := ⟨1⟩, finishHeight, model := .assetWeighted, holding := some ⟨3⟩
    minBalance := 50, floor := .currency ⟨4⟩, quorum := some 100, whitelist, links := [] }

/-- Seven blocks below the greatest height, the horizon ends with that height.  A poll that finishes
there is stored with its whitelist sorted; with an account named twice, it is refused. -/
theorem registration_accepts_exactly_wellFormed_among_holders :
    let ledger := (SimulatedLedger.empty.addHolding .asset ⟨3⟩).addHolding .currency ⟨4⟩
    let w : World MemoryStore SimulatedLedger := ⟨.empty, ledger⟩
    let known := fun kind id => decide ((kind, id) ∈ ledger.holdings)
    let top : Height := UInt64.ofNat (UInt64.size - 1)
    let r := PollRequest.amongHolders top [⟨8⟩, ⟨2⟩, ⟨5⟩]
    let run := (register .standard r (top - 7)).start w
    let r' := PollRequest.amongHolders top [⟨8⟩, ⟨2⟩, ⟨8⟩]
    let run' := (register .standard r' (top - 7)).start w
    (r.WellFormed .standard (top - 7) known w.store ∧ ∃ p, run.1 = .ok p ∧
      r.OpenedAs (top - 7) p ∧ p.whitelist = [⟨2⟩, ⟨5⟩, ⟨8⟩] ∧
      run.2.store = ⟨(∅ : Table Hash Poll).insert .ones p, ∅⟩) ∧
    run'.1 = .error (.registration .duplicateWhitelistEntry) ∧ run'.2.store = .empty := by
  intro ledger w known top r run r' run'
  have hreads : ReadsPolls MemoryStore := fun key => .refl _
  have hknown : KnowsHoldings (· = ledger) known := by
    rintro kind id _ rfl
    exact ⟨rfl, rfl⟩
  constructor
  · have hsorted : run.1.toOption.map Poll.whitelist = some [⟨2⟩, ⟨5⟩, ⟨8⟩] := by decide +kernel
    obtain ⟨-, haccepted, -⟩ :=
      registration_accepts_exactly_wellFormed hreads hknown .standard r (top - 7) (w := w) rfl
    rcases hrun : run.1 with e | p
    · rw [hrun] at hsorted
      cases hsorted
    · rw [hrun] at hsorted
      obtain ⟨hformed, hopened, -, hstore⟩ := haccepted p hrun
      exact ⟨hformed, p, rfl, hopened, Option.some.inj hsorted, hstore⟩
  · obtain ⟨-, haccepted, hrefused⟩ :=
      registration_accepts_exactly_wellFormed hreads hknown .standard r' (top - 7) (w := w) rfl
    rcases hrun : run'.1 with e | p
    · obtain ⟨hstore, ⟨first, hfirst, rfl⟩ | ⟨-, hf⟩⟩ := hrefused e hrun
      · have hhead : (r'.violations .standard (top - 7) known w.store).head?
            = some .duplicateWhitelistEntry := by
          decide +kernel
        cases hfirst.symm.trans hhead
        exact ⟨rfl, hstore⟩
      · exact hf.elim
    · exact absurd (haccepted p hrun).1.nodup (by decide)

end Finality
