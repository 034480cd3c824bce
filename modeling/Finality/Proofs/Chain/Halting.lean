import Finality.Proofs.Chain.Status
import Finality.Proofs.Engine.Fatal
import Finality.Store.Durable

/-!
# Halting

A fatal error halts the follower, and nothing else does.  This holds over any store and any ledger,
however their calls behave and whichever of them fail.

* `SeesThrough.faulty`, `MemoryStore.seesThrough`, `Database.seesThrough` — the stores there are do
  not change by being asked, behind a source of faults or not.
* `Call.harmless` — a call that fails without being fatal has been refused.
* `Call.halt_after`, `Call.start_halted` — what one call makes of the halt; a follower that has
  halted stays as it is, so that `Session.halt_run` keeps the first halt for good.
* `Call.height_after` — what one call makes of the height.
* `halting_exact_and_final` — the result for all runs.
-/

namespace Finality

variable {φ S L γ : Type}

/-! ## What is not changed by asking -/

/-- A store whose polls can be looked up, and not be put in twice, without a trace, beside a ledger
that can be asked for holdings without one. -/
theorem World.seesThrough [PollStore S] [Ledger L]
    (hfind : ∀ key (s : S), ((PollStore.findPoll key).start s).2 = s)
    (hinsert : ∀ p e (s s' : S), (PollStore.insertPoll p).start s = (.error e, s') → s' = s)
    (hexists : ∀ kind id (l : L), ((Ledger.holdingExists kind id).start l).2 = l) :
    SeesThrough fun w : World S L => w where
  findPoll key w := congrArg (fun store => ({ w with store } : World S L)) (hfind key w.store)
  holdingExists kind id w :=
    congrArg (fun ledger => ({ w with ledger } : World S L)) (hexists kind id w.ledger)
  insertPoll := by
    intro p what w w' h
    obtain ⟨hanswer, rfl⟩ := Prod.mk.inj h
    have hstore := hinsert p _ w.store _ (Prod.ext hanswer rfl)
    exact congrArg (fun store => ({ w with store } : World S L)) hstore

theorem MemoryStore.seesThrough :
    SeesThrough fun w : World MemoryStore SimulatedLedger => w :=
  World.seesThrough (fun _ _ => rfl) (fun _ _ _ _ h => (Action.Atomic.transaction _).eq_of_error h)
    fun _ _ _ => rfl

theorem Database.seesThrough : SeesThrough fun w : World Database SimulatedLedger => w :=
  World.seesThrough (fun _ _ => rfl) (fun _ _ _ _ h => (Action.Atomic.transaction _).eq_of_error h)
    fun _ _ _ => rfl

/-- A call that is made to fail does not reach the store behind. -/
theorem SeesThrough.faulty [FaultSource φ] [PollStore S] [Ledger L] {look : World S L → γ}
    (h : SeesThrough look) :
    SeesThrough fun w : World (Faulty φ S) L => look ⟨w.store.store, w.ledger⟩ where
  findPoll key w := by
    have hbehind := h.findPoll key ⟨w.store.store, w.ledger⟩
    show look ⟨((Faulty.call .findPoll (PollStore.findPoll key)).start w.store).2.store, w.ledger⟩
      = _
    unfold Faulty.call
    rw [Action.start_ofFunction]
    rcases FaultSource.next StoreCall.findPoll w.store.faults with ⟨_ | e, faults⟩
    · exact hbehind
    · rfl
  holdingExists kind id w := h.holdingExists kind id ⟨w.store.store, w.ledger⟩
  insertPoll := by
    intro p what w w' hfails
    obtain ⟨hanswer, rfl⟩ := Prod.mk.inj hfails
    show look ⟨((Faulty.call .insertPoll (PollStore.insertPoll p)).start w.store).2.store, w.ledger⟩
      = _
    replace hanswer : ((Faulty.call .insertPoll (PollStore.insertPoll p)).start w.store).1
      = .error (.duplicate what) := hanswer
    unfold Faulty.call at hanswer ⊢
    rw [Action.start_ofFunction] at hanswer ⊢
    rcases hnext : FaultSource.next StoreCall.insertPoll w.store.faults with ⟨_ | e, faults⟩
    · rw [hnext] at hanswer
      have hbehind : (PollStore.insertPoll p).start (⟨w.store.store, w.ledger⟩ : World S L)
          = (.error (.duplicate what), ⟨((PollStore.insertPoll p).start w.store.store).2, w.ledger⟩)
        := Prod.ext hanswer rfl
      exact h.insertPoll p what _ _ hbehind
    · rfl

/-! ## Calls -/

section

variable [PollStore S] [VoteStore S] [Ledger L] {look : World S L → γ}

/-- Work that fails without being fatal is a registration that is refused. -/
theorem Call.work_harmless (hlook : SeesThrough look) (c : Call) (params : Params)
    (height : Height) (w : World S L) :
    (c.work params height).wp (fun _ _ => True) (fun e w' => e.isFatal = false →
      (∃ e', e = .registration e') ∧ look w' = look w) w := by
  have hfatal : ∀ {x : Action (World S L) EngineError Reply}, x.FailsFatally →
      x.wp (fun _ _ => True) (fun e w' => e.isFatal = false →
        (∃ e', e = .registration e') ∧ look w' = look w) w := by
    intro x hx
    refine (hx w trivial).mono (fun _ _ _ => trivial) fun e _ he hharmless => ?_
    rw [he.1] at hharmless
    cases hharmless
  cases c with
  | register r =>
    refine (Action.wp_bind _ _ _).2 ?_
    refine (register_refused hlook params r (height + 1) w).mono (fun _ _ _ => trivial) ?_
    intro e w' hrefused hharmless
    refine ⟨?_, hrefused hharmless⟩
    cases e with
    | registration e => exact ⟨e, rfl⟩
    | consistency e => cases hharmless
    | store e => cases hharmless
    | ledger e => cases hharmless
  | castVote poll voter =>
    exact hfatal (.bind (castVote_failsFatally poll voter (height + 1)) fun _ => .pure _)
  | applyBlock h => exact hfatal (.bind (resolveHeight_failsFatally h) fun _ => .pure _)
  | popBlock h => exact hfatal (.bind (popHeight_failsFatally h) fun _ => .pure _)

theorem Call.refusal_of_halt {σ : Type} (c : Call) {f : Follower σ} {halt : Halt}
    (hhalt : f.halt = some halt) : c.refusal f = some (.halted halt.height halt.reason) := by
  unfold refusal
  rw [hhalt]

/-- A refusal is fatal only if it is for a halt. -/
theorem Call.refusal_eq {σ : Type} {f : Follower σ} {c : Call} {e : NodeError}
    (h : c.refusal f = some e) :
    (∃ halt, f.halt = some halt ∧ e = .halted halt.height halt.reason) ∨
      f.halt = none ∧ ∃ expected got, e = .outOfOrder expected got := by
  unfold refusal at h
  cases hhalt : f.halt with
  | some halt =>
    rw [hhalt] at h
    exact .inl ⟨halt, rfl, (Option.some.inj h).symm⟩
  | none =>
    rw [hhalt] at h
    refine .inr ⟨rfl, ?_⟩
    cases c with
    | register r => cases h
    | castVote poll voter => cases h
    | applyBlock height =>
      dsimp only at h
      split at h
      · exact ⟨_, _, (Option.some.inj h).symm⟩
      · cases h
    | popBlock height =>
      dsimp only at h
      split at h
      · exact ⟨_, _, (Option.some.inj h).symm⟩
      · cases h

/-- **A failure that is not fatal is a refusal**: of a registration, or of a block that is not the
one expected.  It changes nothing that can be seen. -/
theorem Call.harmless (hlook : SeesThrough look) {c : Call} {f f' : Follower (World S L)}
    {e : NodeError} (h : c.action.start f = (.error e, f')) (hharmless : e.isFatal = false) :
    ((∃ e', e = .engine (.registration e')) ∨ ∃ expected got, e = .outOfOrder expected got) ∧
      look f'.world = look f.world ∧ f'.height = f.height ∧ f'.bus = f.bus ∧ f'.halt = none := by
  rw [start_action] at h
  cases hrefusal : c.refusal f with
  | some e' =>
    rw [hrefusal] at h
    cases h
    rcases refusal_eq hrefusal with ⟨halt, -, rfl⟩ | ⟨hrunning, houtOfOrder⟩
    · cases hharmless
    · exact ⟨.inr houtOfOrder, rfl, rfl, rfl, hrunning⟩
  | none =>
    rw [hrefusal] at h
    dsimp only at h
    have hrunning : f.halt = none := by
      cases hhalt : f.halt with
      | none => rfl
      | some halt =>
        rw [c.refusal_of_halt hhalt] at hrefusal
        cases hrefusal
    rcases hwork : (c.work f.params f.height).start f.world with ⟨e' | reply, world⟩
    · rw [hwork] at h
      cases h
      obtain ⟨⟨e'', rfl⟩, hseen⟩ := (c.work_harmless hlook f.params f.height f.world).of_error
        hwork hharmless
      exact ⟨.inl ⟨e'', rfl⟩, hseen, rfl, rfl, hrunning⟩
    · rw [hwork] at h
      cases h

/-- A follower that has halted answers every call with the halt, and stays as it is. -/
theorem Call.start_halted (c : Call) {f : Follower (World S L)} {halt : Halt}
    (hhalt : f.halt = some halt) :
    c.action.start f = (.error (.halted halt.height halt.reason), f) := by
  rw [start_action, c.refusal_of_halt hhalt]

/-- **A follower that is running halts exactly for a fatal error**, with its text and the height that
was being worked on. -/
theorem Call.halt_after (c : Call) {f : Follower (World S L)} (hrunning : f.halt = none) :
    (c.action.start f).2.halt =
      match (c.action.start f).1 with
      | .error e => if e.isFatal then some ⟨c.workHeight f.height, e.message⟩ else none
      | .ok _ => none := by
  rw [start_action]
  cases hrefusal : c.refusal f with
  | some e =>
    rcases refusal_eq hrefusal with ⟨halt, hhalt, -⟩ | ⟨-, expected, got, rfl⟩
    · rw [hrunning] at hhalt
      cases hhalt
    · exact hrunning
  | none =>
    dsimp only
    rcases (c.work f.params f.height).start f.world with ⟨e | reply, world⟩
    · dsimp only
      rw [hrunning]
      rfl
    · exact hrunning

end

/-! ## Exchanges -/

namespace Exchange

/-- The answer is a fatal error. -/
def isFatal (x : Exchange) : Bool :=
  match x.answer with
  | .error e => e.isFatal
  | .ok _ => false

/-- A block was applied. -/
def applied (x : Exchange) : Bool :=
  match x.call, x.answer with
  | .applyBlock _, .ok _ => true
  | _, _ => false

/-- A block was taken back. -/
def popped (x : Exchange) : Bool :=
  match x.call, x.answer with
  | .popBlock _, .ok _ => true
  | _, _ => false

theorem applied_error (c : Call) (e : NodeError) : (⟨c, .error e⟩ : Exchange).applied = false := by
  cases c <;> rfl

theorem popped_error (c : Call) (e : NodeError) : (⟨c, .error e⟩ : Exchange).popped = false := by
  cases c <;> rfl

end Exchange

section

variable [PollStore S] [VoteStore S] [Ledger L]

/-- **The height moves with blocks only**: up by one with a block that is applied, down by one with a
block that is taken back. -/
theorem Call.height_after (c : Call) (f : Follower (World S L)) :
    let x : Exchange := ⟨c, (c.action.start f).1⟩
    (c.action.start f).2.height.toNat + x.popped.toNat = f.height.toNat + x.applied.toNat := by
  intro x
  have hx : x = ⟨c, (c.action.start f).1⟩ := rfl
  rw [start_action] at hx ⊢
  cases hrefusal : c.refusal f with
  | some e =>
    rw [hrefusal] at hx
    rw [hx, Exchange.applied_error, Exchange.popped_error]
  | none =>
    rw [hrefusal] at hx
    dsimp only at hx ⊢
    rcases hwork : (c.work f.params f.height).start f.world with ⟨e | reply, world⟩
    · rw [hwork] at hx
      rw [hx, Exchange.applied_error, Exchange.popped_error]
    · rw [hwork] at hx
      rw [hx]
      cases c with
      | register r => rfl
      | castVote poll voter => rfl
      | applyBlock h =>
        obtain ⟨rfl, hnext⟩ := eq_of_refusal_applyBlock hrefusal
        exact Height.toNat_add_one hnext
      | popBlock h =>
        obtain ⟨rfl, hnext⟩ := eq_of_refusal_popBlock hrefusal
        exact Height.toNat_sub_one hnext

namespace Session

/-! ## Runs -/

/-- A follower has halted exactly if there was a fatal error. -/
theorem halted_iff_step {s : Session (World S L)}
    (hs : s.follower.halt.isSome = true ↔ ∃ x ∈ s.log, x.isFatal = true) (st : Step L) :
    (s.step st).follower.halt.isSome = true ↔ ∃ x ∈ (s.step st).log, x.isFatal = true := by
  cases st with
  | ledger change => exact hs
  | call c =>
    show (c.action.start s.follower).2.halt.isSome = true ↔
      ∃ x ∈ (⟨c, (c.action.start s.follower).1⟩ :: s.log : List Exchange), x.isFatal = true
    cases hhalt : s.follower.halt with
    | some halt =>
      rw [c.start_halted hhalt]
      exact iff_of_true (by rw [hhalt]; rfl) ⟨_, List.mem_cons_self .., rfl⟩
    | none =>
      have hnone : ¬ ∃ x ∈ s.log, x.isFatal = true := by
        rw [← hs, hhalt]
        exact Bool.false_ne_true
      simp only [List.mem_cons, exists_eq_or_imp, or_iff_left hnone, c.halt_after hhalt]
      rcases (c.action.start s.follower).1 with e | reply
      · cases hfatal : e.isFatal <;> simp [Exchange.isFatal, hfatal]
      · simp [Exchange.isFatal]

theorem halted_iff {f : Follower (World S L)} (hrunning : f.halt = none) (steps : List (Step L)) :
    ((start f).run steps).follower.halt.isSome = true ↔
      ∃ x ∈ ((start f).run steps).log, x.isFatal = true := by
  refine run_induction
    (P := fun s => s.follower.halt.isSome = true ↔ ∃ x ∈ s.log, x.isFatal = true)
    (fun s st hs _ => halted_iff_step hs st) ?_ (permits_all steps)
  rw [start, hrunning]
  simp

/-- A halt is kept for good. -/
theorem halt_run {s : Session (World S L)} {halt : Halt} (hhalt : s.follower.halt = some halt)
    (steps : List (Step L)) : (s.run steps).follower.halt = some halt := by
  refine run_induction
    (P := fun s => s.follower.halt = some halt) (fun s st hs _ => ?_) hhalt (permits_all steps)
  cases st with
  | ledger change => exact hs
  | call c =>
    show (c.action.start s.follower).2.halt = some halt
    rw [c.start_halted hs]
    exact hs

/-- The height is where the blocks applied and taken back have led. -/
theorem height_run (f : Follower (World S L)) (steps : List (Step L)) :
    ((start f).run steps).follower.height.toNat
        + ((start f).run steps).log.countP Exchange.popped
      = f.height.toNat + ((start f).run steps).log.countP Exchange.applied := by
  refine run_induction
    (P := fun s => s.follower.height.toNat + s.log.countP Exchange.popped
      = f.height.toNat + s.log.countP Exchange.applied) (fun s st hs _ => ?_) rfl (permits_all steps)
  cases st with
  | ledger change => exact hs
  | call c =>
    have hmoved := c.height_after s.follower
    show (c.action.start s.follower).2.height.toNat
        + (⟨c, (c.action.start s.follower).1⟩ :: s.log : List Exchange).countP Exchange.popped
      = f.height.toNat
        + (⟨c, (c.action.start s.follower).1⟩ :: s.log : List Exchange).countP Exchange.applied
    have htoNat : ∀ b : Bool, (if b = true then 1 else 0) = b.toNat := by decide
    rw [List.countP_cons, List.countP_cons, htoNat, htoNat]
    dsimp only at hmoved
    omega

end Session

end

/-! ## The result -/

/-- **Halting is exact and final.**  In every run of a follower that has not halted at its start,
over any store and any ledger, whichever of their calls fail:

* a call that fails with an error that is not fatal has been refused, as a registration or as a
  block out of order; it changes nothing that can be seen of the store and the ledger, nor the
  height and the listeners, and the follower has not halted;
* the follower has halted exactly if some call so far has failed with a fatal error;
* from the first fatal error on, every call is answered with the height that was being worked on
  then and the text of that error, and changes nothing;
* a call changes the height by one up if it applies a block, by one down if it takes one back, and
  not otherwise, so that the height is where these have led from the start. -/
theorem halting_exact_and_final [PollStore S] [VoteStore S] [Ledger L] {look : World S L → γ}
    (hlook : SeesThrough look) (f : Follower (World S L)) (hrunning : f.halt = none)
    (steps : List (Step L)) :
    let s := (Session.start f).run steps
    (∀ (c : Call) e, (c.action.start s.follower).1 = .error e → e.isFatal = false →
      let f' := (c.action.start s.follower).2
      ((∃ e', e = .engine (.registration e')) ∨ ∃ expected got, e = .outOfOrder expected got) ∧
      look f'.world = look s.follower.world ∧ f'.height = s.follower.height ∧
      f'.bus = s.follower.bus ∧ f'.halt = none) ∧
    (s.follower.halt.isSome = true ↔ ∃ x ∈ s.log, x.isFatal = true) ∧
    (∀ before (c : Call) after e, steps = before ++ .call c :: after →
      let s₀ := (Session.start f).run before
      (∀ x ∈ s₀.log, x.isFatal = false) → (c.action.start s₀.follower).1 = .error e →
      e.isFatal = true → ∀ d : Call, d.action.start s.follower
        = (.error (.halted (c.workHeight s₀.follower.height) e.message), s.follower)) ∧
    (∀ c : Call,
      let x : Exchange := ⟨c, (c.action.start s.follower).1⟩
      (c.action.start s.follower).2.height.toNat + x.popped.toNat
        = s.follower.height.toNat + x.applied.toNat) ∧
    s.follower.height.toNat + s.log.countP Exchange.popped
      = f.height.toNat + s.log.countP Exchange.applied := by
  intro s
  refine ⟨fun c e herror hharmless => ?_, Session.halted_iff hrunning steps, ?_,
    fun c => c.height_after s.follower, Session.height_run f steps⟩
  · have hstart : c.action.start s.follower = (.error e, (c.action.start s.follower).2) :=
      Prod.ext herror rfl
    exact Call.harmless hlook hstart hharmless
  · intro before c after e hsteps s₀ hbefore herror hfatal d
    have hrunning₀ : s₀.follower.halt = none := by
      refine Option.not_isSome_iff_eq_none.1 fun hhalted => ?_
      obtain ⟨x, hx, hxfatal⟩ := (Session.halted_iff hrunning before).1 hhalted
      rw [hbefore x hx] at hxfatal
      cases hxfatal
    have hhalt : (s₀.call c).follower.halt = some ⟨c.workHeight s₀.follower.height, e.message⟩ := by
      show (c.action.start s₀.follower).2.halt = _
      rw [c.halt_after hrunning₀, herror]
      exact if_pos hfatal
    have hrun : s = (s₀.call c).run after := by
      show (Session.start f).run steps = _
      rw [hsteps, Session.run, List.foldl_append]
      rfl
    have hhalted := Session.halt_run hhalt after
    rw [← hrun] at hhalted
    exact d.start_halted hhalted

/-- A registration is refused and a block comes too early, a block is applied, and then the store
fails while a vote is cast. -/
theorem halting_exact_and_final_casting :
    let f : Follower (World (Faulty FaultPlan MemoryStore) SimulatedLedger) :=
      .start ⟨⟨[(.insertVote, ⟨0, 1, .backend "disk"⟩)], .empty⟩, .empty⟩ .standard 0
    let before : List (Step SimulatedLedger) := [.call (.register (.single .zero 3)),
      .call (.register (.single .zero 3)), .call (.applyBlock 2), .call (.applyBlock 1)]
    let after : List (Step SimulatedLedger) := [.call (.castVote .zero ⟨7⟩), .call (.applyBlock 2)]
    let s₀ := (Session.start f).run before
    let s := (Session.start f).run (before ++ .call (.castVote .zero ⟨7⟩) :: after)
    f.halt = none ∧
    s₀.log.map (fun x => x.answer.toBool) = [true, false, false, true] ∧
    (∀ x ∈ s₀.log, x.isFatal = false) ∧
    s.follower.height = 1 ∧
    (∀ d : Call, d.action.start s.follower = (.error (.halted 2
      "phasing error: store error: storage backend error: disk"), s.follower)) := by
  intro f before after s₀ s
  have hlook : SeesThrough fun w : World (Faulty FaultPlan MemoryStore) SimulatedLedger =>
      (⟨w.store.store, w.ledger⟩ : World MemoryStore SimulatedLedger) :=
    MemoryStore.seesThrough.faulty
  have hbefore : ∀ x ∈ s₀.log, x.isFatal = false := by decide +kernel
  have hanswer : (match ((Call.castVote .zero ⟨7⟩).action.start s₀.follower).1 with
      | .error e => decide (e = .engine (.store (.backend "disk")))
      | .ok _ => false) = true := by decide +kernel
  have hheight : (Call.castVote .zero ⟨7⟩).workHeight s₀.follower.height = 2 := by decide +kernel
  refine ⟨rfl, by decide +kernel, hbefore, by decide +kernel, ?_⟩
  rcases hfails : ((Call.castVote .zero ⟨7⟩).action.start s₀.follower).1 with e | reply
  · rw [hfails] at hanswer
    obtain rfl := of_decide_eq_true hanswer
    have hfinal := (halting_exact_and_final hlook f rfl
      (before ++ .call (.castVote .zero ⟨7⟩) :: after)).2.2.1 before (.castVote .zero ⟨7⟩) after _
      rfl hbefore hfails rfl
    rw [hheight] at hfinal
    exact hfinal
  · rw [hfails] at hanswer
    cases hanswer

end Finality
