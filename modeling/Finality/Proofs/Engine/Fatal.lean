import Finality.Engine.Registration
import Finality.Engine.Rollback
import Finality.Proofs.Engine.Decision

/-!
# Which failures are fatal

Over any store and any ledger, whatever their calls do, the engine fails in two ways only.

* Casting a vote, resolving a height and taking back a block fail with fatal errors and no others
  (`castVote_failsFatally`, `resolveHeight_failsFatally`, `popHeight_failsFatally`).
* Registering a poll may also fail because the request is refused.  Then nothing that can be seen
  has changed (`register_refused`): the store was asked for polls, the ledger for holdings, and the
  poll was not put in.  `SeesThrough` says what is asked of the store and the ledger for that.
-/

namespace Finality

variable {σ α γ : Type}

/-- The action fails only with fatal errors. -/
abbrev Action.FailsFatally (x : Action σ EngineError α) : Prop :=
  x.Within (fun _ => True) fun e => e.isFatal = true

theorem inStore_failsFatally (x : Action σ StoreError α) : (inStore x).FailsFatally :=
  (Action.Within.unbounded x).mapError fun _ _ => rfl

theorem inLedger_failsFatally (x : Action σ LedgerError α) : (inLedger x).FailsFatally :=
  (Action.Within.unbounded x).mapError fun _ _ => rfl

theorem outcome_failsFatally {ε : Type} (x : Action σ ε α) :
    (x.outcome : Action σ EngineError (Except ε α)).FailsFatally :=
  (Action.Within.unbounded x).outcome

/-! ## Casting a vote -/

theorem castVote_failsFatally [PollStore σ] [VoteStore σ] [Ledger σ] (poll : Hash)
    (voter : AccountId) (height : Height) :
    (castVote poll voter height : Action σ EngineError VoteOutcome).FailsFatally := by
  refine .bind (inStore_failsFatally _) fun found => ?_
  cases found with
  | none => exact .pure _
  | some p =>
    dsimp only
    cases p.refusal voter height with
    | some reason => exact .pure _
    | none =>
      refine .bind (inStore_failsFatally _) fun vote => ?_
      split
      · exact .pure _
      · refine .bind (inLedger_failsFatally _) fun eligibility => ?_
        cases eligibility with
        | ineligible reason => exact .pure _
        | eligible weight =>
          refine .bind (outcome_failsFatally _) fun inserted => ?_
          split
          · exact .pure _
          · exact .pure _
          · exact .throw rfl

/-! ## Deciding -/

section

variable [PollStore σ] [VoteStore σ]

omit [PollStore σ] in
theorem decideByVotes_failsFatally (p : Poll) :
    (decideByVotes p : Action σ EngineError Outcome).FailsFatally := by
  have hsum : ∀ votes, (sumVotes p.key votes : Action σ EngineError Amount).FailsFatally := by
    intro votes
    unfold sumVotes
    cases sumWeights? (votes.map Vote.weight) with
    | none => exact .throw rfl
    | some sum => exact .pure _
  have hjudge : ∀ tally, (judgeTally p tally : Action σ EngineError Outcome).FailsFatally := by
    intro tally
    unfold judgeTally
    cases p.quorum with
    | none => exact .throw rfl
    | some quorum => exact .pure _
  refine .bind (inStore_failsFatally _) fun votes => ?_
  cases p.model with
  | none => exact .bind (.pure _) hjudge
  | account => exact .bind (.pure _) hjudge
  | assetWeighted => exact .bind (hsum votes) hjudge
  | currencyWeighted => exact .bind (hsum votes) hjudge
  | transactionApproval => exact .bind (hsum votes) hjudge

omit [VoteStore σ] in
theorem linkState_failsFatally (p : Poll) (height : Height) (s : Progress) (link : Hash) :
    (linkState p height s link : Action σ EngineError LinkState).FailsFatally := by
  unfold linkState
  cases s.outcomes.find? link with
  | some o => exact .pure _
  | none =>
    dsimp only
    split
    · exact .pure _
    · refine .bind (inStore_failsFatally _) fun found => ?_
      cases found with
      | none => exact .throw rfl
      | some q =>
        dsimp only
        cases q.status with
        | approved => exact .pure _
        | rejected => exact .pure _
        | pending =>
          dsimp only
          split
          · exact .bind (.throw rfl) fun _ => .pure _
          · exact .pure _

omit [VoteStore σ] in
theorem judgeLinks_failsFatally (p : Poll) (height : Height) (s : Progress) (links : List Hash) :
    (judgeLinks p height s links : Action σ EngineError (Option PollStatus)).FailsFatally := by
  induction links with
  | nil => exact .pure _
  | cons link rest ih =>
    refine .bind (linkState_failsFatally p height s link) fun state => ?_
    cases state with
    | approved => exact ih
    | notApproved => exact .pure _
    | undecided =>
      refine .bind ih fun verdict => ?_
      split <;> exact .pure _

theorem visitLinked_failsFatally (height : Height) (s : Progress) (p : Poll) :
    (visitLinked height s p : Action σ EngineError Progress).FailsFatally := by
  unfold visitLinked
  split
  · exact .pure _
  · refine .bind (judgeLinks_failsFatally p height s p.links) fun verdict => ?_
    cases verdict with
    | none => exact .pure _
    | some status => exact .bind (inStore_failsFatally _) fun tally => .pure _

theorem settleLinked_failsFatally (height : Height) (linked : List Poll) (passes : Nat)
    (s : Progress) :
    (settleLinked height linked passes s : Action σ EngineError Progress).FailsFatally := by
  induction passes generalizing s with
  | zero => exact .pure _
  | succ passes ih =>
    refine .bind (.foldlM (visitLinked_failsFatally height) linked s) fun s' => ?_
    split
    · exact .pure _
    · exact ih s'

theorem decidePolls_failsFatally (polls : List Poll) (height : Height) :
    (decidePolls polls height : Action σ EngineError Outcomes).FailsFatally := by
  refine .bind (.foldlM (fun outcomes p => ?_) _ _) fun outcomes => ?_
  · exact .bind (decideByVotes_failsFatally p) fun o => .pure _
  · refine .bind (settleLinked_failsFatally _ _ _ _) fun s => ?_
    refine .foldlM (fun outcomes key => ?_) _ _
    exact .bind (inStore_failsFatally _) fun tally => .pure _

end

/-! ## Resolving, undoing and taking back -/

theorem compensate_failsFatally (inverse : Hash → Action σ LedgerError Unit) (keys : List Hash) :
    (compensate inverse keys).FailsFatally :=
  .forM (fun _ => .bind (outcome_failsFatally _) fun _ => .pure _) keys

theorem allOrNone_failsFatally (step inverse : Hash → Action σ LedgerError Unit)
    (done todo : List Hash) : (allOrNone step inverse done todo).FailsFatally := by
  induction todo generalizing done with
  | nil => exact .pure _
  | cons key todo ih =>
    refine .bind (outcome_failsFatally _) fun r => ?_
    cases r with
    | ok => exact ih (key :: done)
    | error e => exact .bind (compensate_failsFatally inverse done) fun _ => .throw rfl

theorem writeOrElse_failsFatally [PollStore σ] (rs : List Resolution)
    {takeBack : Action σ EngineError Unit} (h : takeBack.FailsFatally) :
    (writeOrElse rs takeBack).FailsFatally := by
  refine .bind (outcome_failsFatally _) fun r => ?_
  cases r with
  | ok => exact .pure _
  | error e => exact .bind h fun _ => .throw rfl

theorem resolveHeight_failsFatally [PollStore σ] [VoteStore σ] [Ledger σ] (height : Height) :
    (resolveHeight height : Action σ EngineError (List ResolvedPoll)).FailsFatally := by
  refine .bind (inStore_failsFatally _) fun polls => ?_
  cases polls.find? fun p => !p.isPending with
  | some p => exact .throw rfl
  | none =>
    dsimp only
    split
    · exact .pure _
    · refine .bind (decidePolls_failsFatally polls height) fun outcomes => ?_
      refine .bind (allOrNone_failsFatally _ _ _ _) fun _ => ?_
      exact .bind (writeOrElse_failsFatally _ (compensate_failsFatally _ _)) fun _ => .pure _

theorem undoHeight_failsFatally [PollStore σ] [Ledger σ] (height : Height) :
    (undoHeight height : Action σ EngineError (List ResolvedPoll)).FailsFatally := by
  refine .bind (inStore_failsFatally _) fun polls => ?_
  dsimp only
  split
  · exact .pure _
  · refine .bind (allOrNone_failsFatally _ _ _ _) fun _ => ?_
    exact .bind (writeOrElse_failsFatally _ (compensate_failsFatally _ _)) fun _ => .pure _

theorem checkRollbackAt_failsFatally [PollStore σ] (height : Height) :
    (checkRollbackAt height : Action σ EngineError (List Hash)).FailsFatally := by
  refine .bind (inStore_failsFatally _) fun keys => .bind (.forM (fun key => ?_) keys) fun _ => .pure _
  refine .bind (inStore_failsFatally _) fun found => ?_
  cases found with
  | none => exact .pure _
  | some p =>
    dsimp only
    split
    · exact .throw rfl
    · exact .pure _

theorem deleteVotes_failsFatally [VoteStore σ] (votes : List (Hash × AccountId)) :
    (deleteVotes votes : Action σ EngineError Nat).FailsFatally := by
  induction votes with
  | nil => exact .pure _
  | cons vote votes ih =>
    exact .bind (inStore_failsFatally _) fun existed => .bind ih fun others => .pure _

theorem dropContents_failsFatally [PollStore σ] [VoteStore σ] (height : Height) :
    (dropContents height : Action σ EngineError Unit).FailsFatally := by
  refine .bind (.bind (inStore_failsFatally _) fun votes => deleteVotes_failsFatally votes) fun _ => ?_
  refine .bind (.bind (checkRollbackAt_failsFatally height) fun keys => ?_) fun _ => .pure _
  refine .bind (.forM (fun key => ?_) keys) fun _ => .pure _
  exact .bind (inStore_failsFatally _) fun _ => .pure _

/-- The error that removing a block's contents has failed with is reported whatever becomes of
the resolutions. -/
theorem popHeight_failsFatally [PollStore σ] [VoteStore σ] [Ledger σ] (height : Height) :
    (popHeight height : Action σ EngineError (List ResolvedPoll)).FailsFatally := by
  refine .bind (checkRollbackAt_failsFatally height) fun _ => ?_
  refine .bind (undoHeight_failsFatally height) fun reverted => ?_
  intro s _
  rw [Action.wp_bind, Action.wp_outcome]
  refine (dropContents_failsFatally height s trivial).mono (fun _ _ _ => trivial) ?_
  intro e s' he
  exact Action.Within.bind (outcome_failsFatally _) (fun _ => .throw he.1) s' trivial

/-! ## Registering -/

/-- What can be seen of the store and the ledger does not change when a poll is looked up, when the
ledger is asked for a holding, and when a poll is not put in since its transaction has one. -/
structure SeesThrough [PollStore σ] [Ledger σ] (look : σ → γ) : Prop where
  /-- Looking up a poll changes nothing. -/
  findPoll : ∀ key s, look ((PollStore.findPoll key).start s).2 = look s
  /-- Asking for a holding changes nothing. -/
  holdingExists : ∀ kind id s, look ((Ledger.holdingExists kind id).start s).2 = look s
  /-- A poll that is not put in changes nothing. -/
  insertPoll : ∀ p what s s', (PollStore.insertPoll p).start s = (.error (.duplicate what), s') →
    look s' = look s

section

variable [PollStore σ] [Ledger σ] {look : σ → γ}

omit [PollStore σ] [Ledger σ] in
/-- An action that does not change what can be seen keeps to it. -/
theorem within_of_look_eq {ε : Type} {x : Action σ ε α} (h : ∀ s, look (x.start s).2 = look s)
    (seen : γ) : x.Within (fun s => look s = seen) fun _ => True := by
  intro s hs
  have hsame := h s
  rcases hx : x.start s with ⟨e | a, s'⟩
  · rw [hx] at hsame
    exact (Action.wp_of_start_error hx).2 ⟨trivial, hsame.trans hs⟩
  · rw [hx] at hsame
    exact (Action.wp_of_start_ok hx).2 (hsame.trans hs)

/-- Checking a request changes nothing that can be seen. -/
theorem validate_within (hlook : SeesThrough look) (params : Params) (r : PollRequest)
    (height : Height) (seen : γ) :
    (validate params r height : Action σ EngineError Unit).Within (fun s => look s = seen)
      fun _ => True := by
  have hrequire : ∀ check, (require check : Action σ EngineError Unit).Within
      (fun s => look s = seen) fun _ => True := by
    intro check
    cases check with
    | ok => exact .pure ()
    | error e => exact .throw trivial
  have hfind : ∀ key, (inStore (PollStore.findPoll key) : Action σ EngineError _).Within
      (fun s => look s = seen) fun _ => True := fun key =>
    (within_of_look_eq (hlook.findPoll key) seen).mapError fun _ _ => trivial
  refine .bind (hrequire _) fun _ => .bind (hrequire _) fun _ => ?_
  refine .bind (.forM (fun holding => ?_) _) fun _ => .bind (hrequire _) fun _ => ?_
  · obtain ⟨kind, id⟩ := holding
    have hexists : (inLedger (Ledger.holdingExists kind id) : Action σ EngineError _).Within
        (fun s => look s = seen) fun _ => True :=
      (within_of_look_eq (hlook.holdingExists kind id) seen).mapError fun _ _ => trivial
    refine .bind hexists fun found => ?_
    cases found with
    | true => exact .pure ()
    | false => exact .throw trivial
  · refine .bind ?_ fun _ => .bind (hfind _) fun found => ?_
    · unfold checkLinks
      split
      · refine .bind (hrequire _) fun _ => .forM (fun link => .bind (hfind link) fun found => ?_) _
        split
        · exact .throw trivial
        · exact .pure ()
      · exact .pure ()
    · split
      · exact .throw trivial
      · exact .pure ()

/-- **A request that is refused changes nothing** that can be seen of the store and the ledger. -/
theorem register_refused (hlook : SeesThrough look) (params : Params) (r : PollRequest)
    (height : Height) (s : σ) :
    (register params r height : Action σ EngineError Poll).wp (fun _ _ => True)
      (fun e s' => e.isFatal = false → look s' = look s) s := by
  unfold register
  rw [Action.wp_bind]
  refine (validate_within hlook params r height (look s) s rfl).mono ?_ fun _ _ he _ => he.2
  intro _ s₁ hs₁
  rw [Action.wp_bind, Action.wp_outcome]
  rcases hinsert : (PollStore.insertPoll (r.toPoll height)).start s₁ with ⟨e | u, s₂⟩
  · refine (Action.wp_of_start_error hinsert).2 ?_
    cases e with
    | duplicate what => exact fun _ => (hlook.insertPoll _ _ _ _ hinsert).trans hs₁
    | notFound what => exact fun hfatal => nomatch hfatal
    | backend what => exact fun hfatal => nomatch hfatal
    | serialization what => exact fun hfatal => nomatch hfatal
    | corruption what => exact fun hfatal => nomatch hfatal
  · exact (Action.wp_of_start_ok hinsert).2 trivial

end

end Finality
