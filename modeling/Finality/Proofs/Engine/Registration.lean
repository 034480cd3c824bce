import Finality.Engine.Registration
import Finality.Proofs.World

/-!
# What registering does

`register` either stores exactly the poll of a request that has passed every check, or leaves the
store alone and reports an error that is not about consistency (`register_yields`).

The ledger may be any ledger: of a property that its queries keep (`QueriesKeep`), registering says
that it holds afterwards.
-/

namespace Finality

variable {S L : Type} [PollStore S] [VoteStore S] [FaithfulStore S] [Ledger L]

/-- Asking for balances and holdings keeps this property of the ledger. -/
structure QueriesKeep (Λ : L → Prop) : Prop where
  /-- Asking for a balance keeps it. -/
  balanceOf : ∀ account holding height l, Λ l →
    Λ ((Ledger.balanceOf account holding height).start l).2
  /-- Asking whether a holding exists keeps it. -/
  holdingExists : ∀ kind id l, Λ l → Λ ((Ledger.holdingExists kind id).start l).2

/-- The errors of a call that looks at no decision: none is about consistency, and one of the store
needs a store that may fail. -/
def EngineError.IsPlain (fallible : Prop) : EngineError → Prop
  | .registration _ | .ledger _ => True
  | .store _ => fallible
  | .consistency _ => False

/-- What a store shows of a request that is accepted into the block at a height. -/
structure PollRequest.Passes (params : Params) (height : Height) (s : MemoryStore)
    (r : PollRequest) : Prop where
  /-- The poll finishes ahead, and not too far. -/
  finishHeight : r.checkFinishHeight params height = .ok ()
  /-- Holding, quorum, floor, whitelist and links fit the model. -/
  model : r.checkModel = .ok ()
  /-- The whitelist is small enough and has no account twice. -/
  whitelist : r.checkWhitelist params = .ok ()
  /-- The links of a poll decided by links are few enough and have polls. -/
  links : r.model = .transactionApproval →
    r.checkLinkCount params = .ok () ∧ ∀ link ∈ r.links, s.polls.contains link = true
  /-- The transaction has no poll yet. -/
  new : s.polls.find? r.transaction = none

/-! ## What the checks say -/

theorem PollRequest.lt_of_checkFinishHeight {params : Params} {height : Height} {r : PollRequest}
    (h : r.checkFinishHeight params height = .ok ()) : height < r.finishHeight := by
  unfold checkFinishHeight at h
  by_cases hle : r.finishHeight ≤ height
  · rw [if_pos hle] at h
    cases h
  · exact UInt64.not_le.1 hle

/-- A poll that is not decided by links has a quorum. -/
theorem PollRequest.quorum_of_checkModel {r : PollRequest} (h : r.checkModel = .ok ())
    (hmodel : r.model ≠ .transactionApproval) : r.quorum ≠ none := by
  intro hquorum
  have hfail : r.checkQuorum = .error (.missingQuorum r.model) := by
    rw [checkQuorum, hquorum]
    cases hm : r.model <;> first | rfl | exact absurd hm hmodel
  rw [checkModel, hfail] at h
  cases hholding : r.checkHolding <;> rw [hholding] at h <;> cases h

/-- Only a poll that is decided by links has some. -/
theorem PollRequest.links_of_checkModel {r : PollRequest} (h : r.checkModel = .ok ())
    (hmodel : r.model ≠ .transactionApproval) : r.links = [] := by
  cases hlinks : r.links with
  | nil => rfl
  | cons link links =>
    rw [checkModel] at h
    cases hholding : r.checkHolding <;> rw [hholding] at h
    · cases h
    · cases hquorum : r.checkQuorum <;> rw [hquorum] at h
      · cases h
      · simp only [hlinks, bind, Except.bind, pure, Except.pure, throw, throwThe,
          MonadExceptOf.throw] at h
        split at h
        · cases h
        · split at h
          · cases h
          · rw [if_pos ⟨hmodel, List.cons_ne_nil _ _⟩] at h
            cases h

/-! ## Rules -/

variable {v : World MemoryStore L} {Λ : L → Prop}

omit [Ledger L] in
theorem yields_require {check : Except RegistrationError Unit}
    {Q : Unit → World MemoryStore L → Prop} {E : EngineError → World MemoryStore L → Prop}
    (hok : check = .ok () → Q () v) (herror : ∀ e, E (.registration e) v) :
    Yields (require check : Action (World S L) EngineError Unit) v Q E := by
  cases check with
  | ok => exact .pure (hok rfl)
  | error e => exact .throw (herror e)

theorem checkHoldingsExist_yields (hΛ : QueriesKeep Λ) (h : Λ v.ledger) (r : PollRequest) :
    Yields (checkHoldingsExist r : Action (World S L) EngineError Unit) v
      (fun _ v' => v'.store = v.store ∧ Λ v'.ledger)
      (fun e v' => v'.store = v.store ∧ Λ v'.ledger ∧ e.IsPlain (FaithfulStore.fallible S)) := by
  refine Yields.forM (I := fun _ v' => v'.store = v.store ∧ Λ v'.ledger) ?_ ⟨rfl, h⟩
  rintro ⟨kind, id⟩ rest v' ⟨hstore, hledger⟩
  have hkept := hΛ.holdingExists kind id v'.ledger hledger
  refine .bind (.inLedger (.ledger ?_))
  rcases hx : (Ledger.holdingExists kind id).start v'.ledger with ⟨e | found, l⟩
  · rw [hx] at hkept
    exact (Action.wp_of_start_error hx).2 ⟨hstore, hkept, trivial⟩
  · rw [hx] at hkept
    refine (Action.wp_of_start_ok hx).2 ?_
    cases found with
    | true => exact .pure ⟨hstore, hkept⟩
    | false => exact .throw ⟨hstore, hkept, trivial⟩

omit [Ledger L] in
theorem checkLinks_yields (params : Params) (r : PollRequest) :
    Yields (checkLinks params r : Action (World S L) EngineError Unit) v
      (fun _ v' => v' = v ∧ (r.model = .transactionApproval →
        r.checkLinkCount params = .ok () ∧ ∀ link ∈ r.links, v.store.polls.contains link = true))
      (fun e v' => v' = v ∧ e.IsPlain (FaithfulStore.fallible S)) := by
  unfold checkLinks
  split
  · rename_i hmodel
    refine .bind (yields_require (fun hcount => ?_) fun e => ⟨rfl, trivial⟩)
    have hloop : Yields (S := S) (r.links.forM fun link => do
        if (← inStore (PollStore.findPoll link)).isNone then
          throw (EngineError.registration (.linkNotPhased link))) v
        (fun _ v' => v' = v ∧ ∀ link ∈ r.links, link ∉ [] →
          v.store.polls.contains link = true)
        (fun e v' => v' = v ∧ e.IsPlain (FaithfulStore.fallible S)) := by
      refine Yields.forM (I := fun rest v' => v' = v ∧ ∀ link ∈ r.links, link ∉ rest →
        v.store.polls.contains link = true) ?_ ⟨rfl, fun link hlink hnot => absurd hlink hnot⟩
      rintro link rest _ ⟨rfl, hchecked⟩
      refine .bind (.inStore (yields_findPoll (fun hf e => ⟨rfl, hf⟩) ?_))
      split
      · exact .throw ⟨rfl, trivial⟩
      · rename_i hfound
        refine .pure ⟨rfl, fun link' hlink' hrest => ?_⟩
        by_cases heq : link' = link
        · rw [heq, Table.contains, Option.isSome_iff_ne_none]
          simpa using hfound
        · exact hchecked link' hlink' (by simp [heq, hrest])
    refine hloop.mono ?_ fun _ _ he => he
    rintro _ _ ⟨rfl, hlinks⟩
    exact ⟨rfl, fun _ => ⟨hcount, fun link hlink => hlinks link hlink List.not_mem_nil⟩⟩
  · rename_i hmodel
    exact .pure ⟨rfl, fun h => absurd h hmodel⟩

theorem validate_yields (hΛ : QueriesKeep Λ) (h : Λ v.ledger) (params : Params) (r : PollRequest)
    (height : Height) :
    Yields (validate params r height : Action (World S L) EngineError Unit) v
      (fun _ v' => v'.store = v.store ∧ Λ v'.ledger ∧ r.Passes params height v.store)
      (fun e v' => v'.store = v.store ∧ Λ v'.ledger ∧ e.IsPlain (FaithfulStore.fallible S)) := by
  unfold validate
  refine .bind (yields_require (fun hfinish => ?_) fun e => ⟨rfl, h, trivial⟩)
  refine .bind (yields_require (fun hmodel => ?_) fun e => ⟨rfl, h, trivial⟩)
  refine .bind ((checkHoldingsExist_yields hΛ h r).mono ?_ fun _ _ he => he)
  rintro _ v₁ ⟨hstore, hledger⟩
  refine .bind (yields_require (fun hlist => ?_) fun e => ⟨hstore, hledger, trivial⟩)
  refine .bind ((checkLinks_yields params r).mono ?_ ?_)
  · rintro _ _ ⟨rfl, hlinks⟩
    rw [hstore] at hlinks
    refine .bind (.inStore (yields_findPoll (fun hf e => ⟨hstore, hledger, hf⟩) ?_))
    split
    · exact .throw ⟨hstore, hledger, trivial⟩
    · rename_i hnew
      rw [hstore] at hnew
      exact .pure ⟨hstore, hledger, hfinish, hmodel, hlist, hlinks, by simpa using hnew⟩
  · rintro e _ ⟨rfl, he⟩
    exact ⟨hstore, hledger, he⟩

/-- **Registering** stores the poll of a request that passes, and nothing else; a request that is
refused, for whatever reason, stores nothing. -/
theorem register_yields (hΛ : QueriesKeep Λ) (h : Λ v.ledger) (params : Params) (r : PollRequest)
    (height : Height) :
    Yields (register params r height : Action (World S L) EngineError Poll) v
      (fun p v' => p = r.toPoll height ∧ r.Passes params height v.store ∧
        v'.store = { v.store with
          polls := v.store.polls.insert r.transaction (r.toPoll height) } ∧ Λ v'.ledger)
      (fun e v' => v'.store = v.store ∧ Λ v'.ledger ∧ e.IsPlain (FaithfulStore.fallible S)) := by
  unfold register
  refine .bind ((validate_yields hΛ h params r height).mono ?_ fun _ _ he => he)
  rintro _ v₁ ⟨hstore, hledger, hpasses⟩
  have hnew : v₁.store.polls.find? (r.toPoll height).key = none := by
    rw [hstore]
    exact hpasses.new
  refine .bind (.outcome (yields_insertPoll (fun hf e => ?_) hnew ?_))
  · cases e with
    | duplicate what => exact .throw ⟨hstore, hledger, trivial⟩
    | notFound what => exact .throw ⟨hstore, hledger, hf⟩
    | backend what => exact .throw ⟨hstore, hledger, hf⟩
    | serialization what => exact .throw ⟨hstore, hledger, hf⟩
    | corruption what => exact .throw ⟨hstore, hledger, hf⟩
  · rw [hstore]
    exact .pure ⟨rfl, hpasses, rfl, hledger⟩

/-! ## Samples -/

/-- A poll in which everybody may vote and one vote is enough. -/
def PollRequest.single (transaction : Hash) (finishHeight : Height) : PollRequest :=
  { transaction, account := ⟨1⟩, finishHeight, model := .account, holding := none, minBalance := 0
    floor := .none, quorum := some 1, whitelist := [], links := [] }

/-- A poll that is decided by the polls of other transactions. -/
def PollRequest.linking (transaction : Hash) (links : List Hash) (finishHeight : Height) :
    PollRequest :=
  { transaction, account := ⟨1⟩, finishHeight, model := .transactionApproval, holding := none
    minBalance := 0, floor := .none, quorum := none, whitelist := [], links }

/-- The hash whose bytes are all one. -/
def Hash.ones : Hash := ⟨List.replicate 32 1, rfl⟩

end Finality
