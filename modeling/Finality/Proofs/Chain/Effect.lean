import Finality.Proofs.Chain.Session
import Finality.Proofs.Engine.Rollback
import Finality.Proofs.Ledger.Simulated

/-!
# What calls do to polls and votes

`Call.Effect` lists everything that a call can do to a store that does not fail: one poll or one
vote is added, the polls of a height are decided, a block is taken back, or nothing happens, for a
reason that the store shows (`Call.FailsWith`).  Every statement about sessions is proved by going
through these cases, and does not look into the engine.

* `Call.work_yields` — the engine does nothing else.
* `Call.Ends`, `Call.ends` — what follows for the follower: it refuses the call, moves on, or stays
  where it is.
* `Session.step_keeps` — what follows for a session: a statement about its log, height and store is
  kept by a step if it is kept by failures and by the effects.  `Session.run_keeps` — what is kept
  by every step holds of all runs.
-/

namespace Finality

variable {S L : Type}

/-- What a ledger may be after some queries: it has every property that queries keep. -/
def AskedFrom [Ledger L] (l l' : L) : Prop := ∀ Λ : L → Prop, QueriesKeep Λ → Λ l → Λ l'

theorem AskedFrom.refl [Ledger L] (l : L) : AskedFrom l l := fun _ _ h => h

theorem queriesKeep_askedFrom [Ledger L] (l : L) : QueriesKeep (AskedFrom l) where
  balanceOf account holding height l' h Λ hΛ hl :=
    hΛ.balanceOf account holding height l' (h Λ hΛ hl)
  holdingExists kind id l' h Λ hΛ hl := hΛ.holdingExists kind id l' (h Λ hΛ hl)

/-- Queries leave a simulated ledger as it is. -/
theorem SimulatedLedger.eq_of_askedFrom {l l' : SimulatedLedger} (h : AskedFrom l l') : l' = l :=
  h (· = l) (queriesKeep _) rfl

/-- What the store is like when the work of a call fails with an error. -/
def Call.FailsWith (s : MemoryStore) (e : EngineError) : Call → Prop
  | .register _ | .castVote .. => e.IsPlain False
  | .applyBlock height => e.ResolutionCause s height False
  | .popBlock height => e.RollbackCause s height False ∨ ∃ e', e = .ledger e'

/-- What the ledger is like when the work of a call has failed with an error: it was only asked, or
it has not been changed, or it has itself failed at releasing or at undoing releases. -/
def Call.LeavesLedger [Ledger L] (v : World MemoryStore L) (e : EngineError) (l : L) : Call → Prop
  | .register _ | .castVote .. => AskedFrom v.ledger l
  | .applyBlock _ => l = v.ledger ∨ ∃ keys, (releaseAll keys).start v.ledger = (.error e, l)
  | .popBlock height => l = v.ledger ∨
    (undoAll (approvedKeys (v.store.decidedAt height))).start v.ledger = (.error e, l)

/-- What a call, made when the chain is at a height, does to the polls and votes if nothing is wrong
with the store. -/
inductive Call.Effect [Ledger L] (params : Params) (height : Height) (v : World MemoryStore L) :
    Call → Except EngineError Reply → World MemoryStore L → Prop where
  /-- The poll of a request that passes is added. -/
  | registered {r : PollRequest} {l : L} (hpasses : r.Passes params (height + 1) v.store)
      (hledger : AskedFrom v.ledger l) :
      Effect params height v (.register r) (.ok (.registered (r.toPoll (height + 1))))
        ⟨{ v.store with polls := v.store.polls.insert r.transaction (r.toPoll (height + 1)) }, l⟩
  /-- A vote that is admitted is added. -/
  | accepted {x : Vote} {l : L} (hheight : x.height = height + 1) (hadmitted : x.Admitted v.store)
      (hledger : AskedFrom v.ledger l)
      (hweighs : (VoteOutcome.accepted x.weight).Weighs x.poll x.voter x.height v l) :
      Effect params height v (.castVote x.poll x.voter) (.ok (.voted (.accepted x.weight)))
        ⟨{ v.store with votes := v.store.votes.insert x.id x }, l⟩
  /-- A vote is refused. -/
  | rejected {poll : Hash} {voter : AccountId} {reason : RejectReason} {l : L}
      (hledger : AskedFrom v.ledger l) :
      Effect params height v (.castVote poll voter) (.ok (.voted (.rejected reason)))
        ⟨v.store, l⟩
  /-- The polls due at the height are decided and the approved transactions released. -/
  | applied {h : Height} {outcomes : Outcomes} {l : L} (hdecide : outcomes.Decide h v.store)
      (hledger : (releaseAll outcomes.approved).start v.ledger = (.ok (), l)) :
      Effect params height v (.applyBlock h)
        (.ok (.events ((outcomes.resolved (v.store.pollsWhere (·.finishHeight = h)) h).map
          PollEvent.ofResolved)))
        ⟨v.store.settle outcomes, l⟩
  /-- The block is taken back. -/
  | popped {h : Height} {l : L}
      (hledger : (undoAll (approvedKeys (v.store.decidedAt h))).start v.ledger = (.ok (), l)) :
      Effect params height v (.popBlock h)
        (.ok (.events ((v.store.decidedAt h).map fun p =>
          PollEvent.ofReverted (ResolvedPoll.ofPoll h p))))
        ⟨v.store.takeBack h, l⟩
  /-- Nothing happens to polls and votes. -/
  | failed {c : Call} {e : EngineError} {l : L} (hcause : c.FailsWith v.store e)
      (hledger : c.LeavesLedger v e l) :
      Effect params height v c (.error e) ⟨v.store, l⟩

/-! ## What stays -/

/-- What was laid down when a poll was registered: the poll without a decision. -/
def Poll.terms (p : Poll) : Poll := p.resolve p.reset

theorem Poll.terms_undecide (height : Height) (p : Poll) : (p.undecide height).terms = p.terms := by
  unfold undecide
  split <;> rfl

/-- Polls with the same terms agree in whatever does not depend on a decision. -/
theorem Poll.eq_of_terms {α : Type} {p q : Poll} (f : Poll → α) (hf : ∀ r : Poll, f r.terms = f r)
    (h : p.terms = q.terms) : f p = f q := by
  rw [← hf p, h, hf q]

theorem Poll.createdHeight_of_terms {p q : Poll} (h : p.terms = q.terms) :
    p.createdHeight = q.createdHeight := eq_of_terms Poll.createdHeight (fun _ => rfl) h

theorem Poll.finishHeight_of_terms {p q : Poll} (h : p.terms = q.terms) :
    p.finishHeight = q.finishHeight := eq_of_terms Poll.finishHeight (fun _ => rfl) h

theorem Poll.criteria_of_terms {p q : Poll} (h : p.terms = q.terms) : p.criteria = q.criteria :=
  eq_of_terms Poll.criteria (fun _ => rfl) h

theorem Poll.links_of_terms {p q : Poll} (h : p.terms = q.terms) : p.links = q.links :=
  eq_of_terms Poll.links (fun _ => rfl) h

namespace MemoryStore

/-- Deciding polls leaves their terms as they are. -/
theorem terms_of_settle {s : MemoryStore} {outcomes : Outcomes} {key : Hash} {p : Poll}
    (hp : (s.settle outcomes).polls.find? key = some p) :
    ∃ q, s.polls.find? key = some q ∧ p.terms = q.terms := by
  rw [settle, Table.find?_map, Option.map_eq_some_iff] at hp
  obtain ⟨q, hq, rfl⟩ := hp
  refine ⟨q, hq, ?_⟩
  cases outcomes.find? key <;> rfl

/-- Deciding polls makes nothing younger. -/
theorem UpTo.settle {n : Nat} {s : MemoryStore} (h : s.UpTo n) (outcomes : Outcomes) :
    (s.settle outcomes).UpTo n where
  polls hp := by
    obtain ⟨q, hq, hterms⟩ := terms_of_settle hp
    rw [Poll.createdHeight_of_terms hterms]
    exact h.polls hq
  votes hx := h.votes hx

/-- No poll is gone once polls are decided. -/
theorem exists_settle {s : MemoryStore} (outcomes : Outcomes) {key : Hash} {q : Poll}
    (hq : s.polls.find? key = some q) :
    ∃ p, (s.settle outcomes).polls.find? key = some p ∧ p.terms = q.terms := by
  rw [settle, Table.find?_map, hq]
  refine ⟨_, rfl, ?_⟩
  cases outcomes.find? key <;> rfl

theorem find?_polls_takeBack {s : MemoryStore} {height : Height} {key : Hash} {p : Poll} :
    (s.takeBack height).polls.find? key = some p ↔
      ∃ q, s.polls.find? key = some q ∧ q.createdHeight ≠ height ∧ p = q.undecide height := by
  rw [takeBack, find?_polls_dropBlock, undecide, Table.find?_map, Option.map_eq_some_iff]
  constructor
  · rintro ⟨⟨q, hq, rfl⟩, hother⟩
    rw [Poll.createdHeight_undecide] at hother
    exact ⟨q, hq, hother, rfl⟩
  · rintro ⟨q, hq, hother, rfl⟩
    rw [Poll.createdHeight_undecide]
    exact ⟨⟨q, hq, rfl⟩, hother⟩

theorem find?_votes_takeBack {s : MemoryStore} {height : Height} {id : VoteKey} {x : Vote} :
    (s.takeBack height).votes.find? id = some x ↔
      s.votes.find? id = some x ∧ x.height ≠ height := find?_votes_dropBlock

end MemoryStore

/-- A call that fails does so for a reason that the store shows. -/
theorem Call.Effect.failsWith [Ledger L] {params : Params} {height : Height} {c : Call}
    {e : EngineError} {v v' : World MemoryStore L} (h : c.Effect params height v (.error e) v') :
    c.FailsWith v.store e := by
  cases h with
  | failed hcause hledger => exact hcause

/-- A call that fails leaves the store alone. -/
theorem Call.Effect.store_of_error [Ledger L] {params : Params} {height : Height} {c : Call}
    {e : EngineError} {v v' : World MemoryStore L} (h : c.Effect params height v (.error e) v') :
    v'.store = v.store := by
  cases h with
  | failed hcause hledger => rfl

/-- A call that fails without need to stop has only asked the ledger. -/
theorem Call.Effect.askedFrom [Ledger L] {params : Params} {height : Height} {c : Call}
    {e : EngineError} {v v' : World MemoryStore L} (h : c.Effect params height v (.error e) v')
    (hfatal : e.isFatal = false) : AskedFrom v.ledger v'.ledger := by
  cases h with
  | failed hcause hledger =>
    cases c with
    | register r => exact hledger
    | castVote poll voter => exact hledger
    | applyBlock height =>
      rw [EngineError.ResolutionCause.isFatal hcause] at hfatal
      cases hfatal
    | popBlock height =>
      rw [EngineError.isFatal_of_popping hcause] at hfatal
      cases hfatal

/-- A registration that succeeds is the first for its transaction, and casts no votes. -/
theorem Call.Effect.register_ok [Ledger L] {params : Params} {height : Height} {r : PollRequest}
    {reply : Reply} {v v' : World MemoryStore L}
    (h : (Call.register r).Effect params height v (.ok reply) v') :
    v.store.polls.find? r.transaction = none ∧ v'.store.votes = v.store.votes := by
  cases h with
  | registered hpasses hledger => exact ⟨hpasses.new, rfl⟩

/-- A poll that is stored after a call has been registered by it, or was there before with the same
terms. -/
theorem Call.Effect.find?_polls [Ledger L] {params : Params} {height : Height} {c : Call}
    {r : Except EngineError Reply} {v v' : World MemoryStore L}
    (h : c.Effect params height v r v') {key : Hash} {p : Poll}
    (hp : v'.store.polls.find? key = some p) :
    (∃ q, v.store.polls.find? key = some q ∧ p.terms = q.terms) ∨
      ∃ req, c = .register req ∧ key = req.transaction ∧ p = req.toPoll (height + 1) := by
  cases h with
  | @registered req l hpasses hledger =>
    rw [Table.find?_insert] at hp
    split at hp
    · cases hp
      exact .inr ⟨req, rfl, ‹_›, rfl⟩
    · exact .inl ⟨p, hp, rfl⟩
  | accepted hheight hadmitted hledger => exact .inl ⟨p, hp, rfl⟩
  | rejected hledger => exact .inl ⟨p, hp, rfl⟩
  | applied hdecide hledger => exact .inl (MemoryStore.terms_of_settle hp)
  | popped hledger =>
    obtain ⟨q, hq, -, rfl⟩ := MemoryStore.find?_polls_takeBack.1 hp
    exact .inl ⟨q, hq, q.terms_undecide _⟩
  | failed hcause hledger => exact .inl ⟨p, hp, rfl⟩

variable [PollStore S] [VoteStore S] [FaithfulStore S] [Ledger L] {v : World MemoryStore L}

/-! ## The work of a call -/

/-- **The work of a call** has one of its effects. -/
theorem Call.work_yields (hs : v.store.Keyed) (hsafe : ¬ FaithfulStore.fallible S)
    (params : Params) (height : Height) (c : Call) :
    Yields (S := S) (c.work params height) v
      (fun reply v' => c.Effect params height v (.ok reply) v')
      (fun e v' => c.Effect params height v (.error e) v') := by
  have hasked := queriesKeep_askedFrom v.ledger
  cases c with
  | register r =>
    refine .bind ((register_yields hasked (.refl _) params r (height + 1)).mono ?_ ?_)
    · rintro p ⟨s, l⟩ ⟨rfl, hpasses, rfl, hledger⟩
      exact .pure (.registered hpasses hledger)
    · rintro e ⟨s, l⟩ ⟨rfl, hledger, hplain⟩
      rw [eq_false hsafe] at hplain
      exact .failed hplain hledger
  | castVote poll voter =>
    refine .bind ((castVote_yields hasked (.refl _) poll voter (height + 1)).mono ?_ ?_)
    · rintro o ⟨s, l⟩ ⟨hstores, hledger, hweighs⟩
      cases o with
      | accepted weight =>
        obtain ⟨hadmitted, rfl⟩ := hstores
        exact .pure (.accepted (x := { poll, voter, weight, height := height + 1 }) rfl hadmitted
          hledger hweighs)
      | rejected reason =>
        cases hstores
        exact .pure (.rejected hledger)
    · rintro e ⟨s, l⟩ ⟨rfl, hledger, hplain⟩
      rw [eq_false hsafe] at hplain
      exact .failed hplain hledger
  | applyBlock h =>
    refine .bind ((resolveHeight_yields hs h).mono ?_ ?_)
    · rintro resolved ⟨s, l⟩ ⟨outcomes, hdecide, rfl, rfl, hledger⟩
      exact .pure (.applied hdecide hledger)
    · rintro e ⟨s, l⟩ ⟨rfl, hcause, hledger⟩
      rw [eq_false hsafe] at hcause
      exact .failed hcause (hledger.resolve_left hsafe)
  | popBlock h =>
    refine .bind ((popHeight_yields hs hsafe h).mono ?_ ?_)
    · rintro reverted ⟨s, l⟩ ⟨rfl, rfl, hledger⟩
      rw [List.map_map]
      exact .pure (.popped hledger)
    · rintro e ⟨s, l⟩ ⟨rfl, ⟨hledger, hcause⟩ | ⟨e', rfl, hundo⟩⟩
      · exact .failed (.inl hcause) (.inl hledger)
      · exact .failed (.inr ⟨e', rfl⟩) (.inr hundo)

/-! ## Calls of a follower -/

/-- How a call of a follower ends, if nothing is wrong with its store. -/
inductive Call.Ends (c : Call) (f : Follower (World S L)) :
    Except NodeError Reply → Follower (World S L) → Prop where
  /-- It is refused, and nothing changes. -/
  | refused {e : NodeError} (hrefusal : c.refusal f = some e) : Ends c f (.error e) f
  /-- Its work is done, and the follower moves on. -/
  | done {reply : Reply} {f' : Follower (World S L)} (hrefusal : c.refusal f = none)
      (heffect : c.Effect f.params f.height f.world.view (.ok reply) f'.world.view)
      (hparams : f'.params = f.params) (hheight : f'.height = c.heightAfter f.height)
      (hhalt : f'.halt = f.halt) : Ends c f (.ok reply) f'
  /-- Its work has failed, and the follower stays where it is; it halts if the error is fatal. -/
  | failed {e : EngineError} {f' : Follower (World S L)} (hrefusal : c.refusal f = none)
      (heffect : c.Effect f.params f.height f.world.view (.error e) f'.world.view)
      (hparams : f'.params = f.params) (hheight : f'.height = f.height)
      (hhalt : e.isFatal = false → f'.halt = f.halt) : Ends c f (.error (.engine e)) f'

/-- **A call of a follower** ends in one of these ways. -/
theorem Call.ends (c : Call) {f : Follower (World S L)} (hs : f.world.view.store.Keyed)
    (hsafe : ¬ FaithfulStore.fallible S) :
    c.Ends f (c.action.start f).1 (c.action.start f).2 := by
  have hwork := c.work_yields hs hsafe f.params f.height
  rw [c.start_action]
  cases hrefusal : c.refusal f with
  | some e => exact .refused hrefusal
  | none =>
    rcases hx : (c.work f.params f.height).start f.world with ⟨e | reply, world⟩
    · refine .failed hrefusal (hwork.of_error hx) rfl rfl fun hfatal => ?_
      dsimp only
      rw [hfatal, if_neg Bool.false_ne_true]
    · exact .done hrefusal (hwork.of_ok hx) rfl rfl rfl

/-- The block that a follower applies is the next one. -/
theorem Call.eq_of_refusal_applyBlock {σ : Type} {f : Follower σ} {h : Height}
    (hrefusal : (Call.applyBlock h).refusal f = none) : h = f.height + 1 ∧ h ≠ 0 := by
  rw [refusal] at hrefusal
  split at hrefusal
  · cases hrefusal
  · split at hrefusal
    · cases hrefusal
    · rename_i hexpected
      simpa [not_or] using hexpected

/-- The block that a follower takes back is the last one. -/
theorem Call.eq_of_refusal_popBlock {σ : Type} {f : Follower σ} {h : Height}
    (hrefusal : (Call.popBlock h).refusal f = none) : h = f.height ∧ h ≠ 0 := by
  rw [refusal] at hrefusal
  split at hrefusal
  · cases hrefusal
  · split at hrefusal
    · cases hrefusal
    · rename_i hexpected
      simpa [not_or] using hexpected

/-- A follower refuses the next block only if it has halted. -/
theorem Call.isFatal_of_refusal_applyBlock {σ : Type} {f : Follower σ} {e : NodeError}
    (hrefusal : (Call.applyBlock (f.height + 1)).refusal f = some e) (hne : f.height + 1 ≠ 0) :
    e.isFatal = true := by
  rw [refusal] at hrefusal
  split at hrefusal
  · cases hrefusal
    rfl
  · rw [if_neg (by simp [hne])] at hrefusal
    cases hrefusal

/-- A follower refuses to take back the last block only if it has halted. -/
theorem Call.isFatal_of_refusal_popBlock {σ : Type} {f : Follower σ} {e : NodeError}
    (hrefusal : (Call.popBlock f.height).refusal f = some e) (hne : f.height ≠ 0) :
    e.isFatal = true := by
  rw [refusal] at hrefusal
  split at hrefusal
  · cases hrefusal
    rfl
  · rw [if_neg (by simp [hne])] at hrefusal
    cases hrefusal

/-- A refusal is not the engine's. -/
theorem Call.refusal_ne_engine {σ : Type} {f : Follower σ} {c : Call} {e : EngineError} :
    c.refusal f ≠ some (.engine e) := by
  cases hhalt : f.halt with
  | some h => cases c <;> simp [refusal, hhalt]
  | none =>
    cases c with
    | register r => simp [refusal, hhalt]
    | castVote poll voter => simp [refusal, hhalt]
    | applyBlock height =>
      simp only [refusal, hhalt]
      split <;> simp
    | popBlock height =>
      simp only [refusal, hhalt]
      split <;> simp

/-! ## Steps of a session -/

/-- **What a step keeps.**  A step that is not a call leaves log, height and store alone.  A call
that fails leaves height and store alone, and if the engine is to blame, the store shows why; a
call that succeeds has one of its effects on the store and takes the chain where it should. -/
theorem Session.step_keeps (hsafe : ¬ FaithfulStore.fallible S) {s : Session (World S L)}
    (hkeyed : s.follower.world.view.store.Keyed) {P : List Exchange → Height → MemoryStore → Prop}
    (hs : P s.log s.follower.height s.follower.world.view.store) (st : Step L)
    (herror : ∀ c e, st = .call c →
      (∀ e', e = .engine e' →
        c.refusal s.follower = none ∧ c.FailsWith s.follower.world.view.store e') →
      P (⟨c, .error e⟩ :: s.log) s.follower.height s.follower.world.view.store)
    (hdone : ∀ c reply v', st = .call c → c.refusal s.follower = none →
      c.Effect s.follower.params s.follower.height s.follower.world.view (.ok reply) v' →
      P (⟨c, .ok reply⟩ :: s.log) (c.heightAfter s.follower.height) v'.store) :
    P (s.step st).log (s.step st).follower.height (s.step st).follower.world.view.store := by
  cases st with
  | ledger change => exact hs
  | call c =>
    have hends := c.ends hkeyed hsafe
    change P (⟨c, (c.action.start s.follower).1⟩ :: s.log) (c.action.start s.follower).2.height
      (c.action.start s.follower).2.world.view.store
    rcases hx : c.action.start s.follower with ⟨r, f'⟩
    rw [hx] at hends
    cases hends with
    | refused hrefusal =>
      refine herror c _ rfl fun e' he' => ?_
      rw [he'] at hrefusal
      exact absurd hrefusal Call.refusal_ne_engine
    | done hrefusal heffect hparams hheight hhalt =>
      rw [hheight]
      exact hdone c _ _ rfl hrefusal heffect
    | failed hrefusal heffect hparams hheight hhalt =>
      rw [hheight, heffect.store_of_error]
      refine herror c _ rfl fun e' he' => ?_
      cases he'
      exact ⟨hrefusal, heffect.failsWith⟩

/-- **What a run keeps.**  A statement that holds of an empty store before the first call, and is
kept by every allowed step, holds after every run. -/
theorem Session.run_keeps {allowed : Session (World MemoryStore L) → Step L → Prop}
    {P : List Exchange → Height → MemoryStore → Prop} (hnothing : ∀ height, P [] height .empty)
    (hstep : ∀ (s : Session (World MemoryStore L)) (st : Step L),
      P s.log s.follower.height s.follower.world.view.store → allowed s st →
      P (s.step st).log (s.step st).follower.height (s.step st).follower.world.view.store)
    {f : Follower (World MemoryStore L)} (hempty : f.world.store = .empty) {steps : List (Step L)}
    (hsteps : Permits allowed (.start f) steps) :
    P ((start f).run steps).log ((start f).run steps).follower.height
      ((start f).run steps).follower.world.store := by
  refine run_induction (P := fun s => P s.log s.follower.height s.follower.world.view.store)
    hstep ?_ hsteps
  have hview : (start f).follower.world.view.store = .empty := hempty
  rw [hview]
  exact hnothing _

end Finality
