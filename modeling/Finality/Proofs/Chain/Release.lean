import Finality.Proofs.Chain.Session
import Finality.Proofs.Engine.Release

/-!
# What is released is what is approved

The approval of a poll is recorded in the store, and the release of its transaction in the ledger.
Applying a block and taking one back change both, one call at a time, and any call may fail.  In
every session the two records agree after every step, provided that the calls which take releases
or undoings back succeed.

* `Call.compensates` — whether the calls with which a failing call takes back its work succeed;
  `Session.Compensates` — they do in a session, and the ledger's releases are changed by nobody
  else.
* `Call.work_inStep` — no call of the engine brings store and ledger out of step.
* `released_iff_approved` — the result for all runs, over a store that may fail at any call.
-/

namespace Finality

variable {S L : Type}

/-- Whether a call that fails takes back what it has released or undone with success. -/
def Call.compensates [PollStore S] [VoteStore S] [Ledger L] (w : World S L) : Call → Bool
  | .register _ | .castVote .. => true
  | .applyBlock height => resolvesCleanly height w
  | .popBlock height => popsCleanly height w

section

variable [PollStore S] [VoteStore S] [FaithfulStore S]

/-- **No call brings store and ledger out of step**, whether it succeeds or fails. -/
theorem Call.work_inStep {w : World S SimulatedLedger} (hw : w.view.InStep) (params : Params)
    (height : Height) {c : Call} (hclean : c.compensates w = true) :
    (c.work params height).wp (fun _ w' => w'.view.InStep) (fun _ w' => w'.view.InStep) w := by
  have hqueries := SimulatedLedger.queriesKeep (· = w.view.ledger)
  cases c with
  | register r =>
    refine (Action.wp_bind _ _ _).2
      ((register_yields (S := S) hqueries rfl params r (height + 1) w rfl).mono ?_ ?_)
    · rintro p w' ⟨rfl, hpasses, hstore, hledger⟩
      exact hw.insertPoll (p := r.toPoll (height + 1)) hpasses.new rfl hstore hledger
    · rintro e w' ⟨hstore, hledger, -⟩
      exact hw.of_same hstore fun t => by rw [hledger]
  | castVote poll voter =>
    refine (Action.wp_bind _ _ _).2
      ((castVote_yields (S := S) hqueries rfl poll voter (height + 1) w rfl).mono ?_ ?_)
    · rintro o w' ⟨hstores, hledger, -⟩
      cases o with
      | accepted weight => exact hw.insertVote hstores.2 hledger
      | rejected reason => exact hw.of_same hstores fun t => by rw [hledger]
    · rintro e w' ⟨hstore, hledger, -⟩
      exact hw.of_same hstore fun t => by rw [hledger]
  | applyBlock h =>
    exact (Action.wp_bind _ _ _).2
      ((resolveHeight_inStep hw hclean).mono (fun _ _ h => h) fun _ _ h => h)
  | popBlock h =>
    exact (Action.wp_bind _ _ _).2
      ((popHeight_inStep hw hclean).mono (fun _ _ h => h) fun _ _ h => h)

/-! ## Sessions -/

/-- A call that is not refused takes back with success what it has to take back, and nobody but the
follower changes what is released. -/
def Session.Compensates (s : Session (World S SimulatedLedger)) : Step SimulatedLedger → Prop
  | .call c => c.refusal s.follower = none → c.compensates s.follower.world = true
  | .ledger change =>
    (change s.follower.world.ledger).released = s.follower.world.ledger.released

instance Session.decidableCompensates (s : Session (World S SimulatedLedger)) :
    (st : Step SimulatedLedger) → Decidable (s.Compensates st)
  | .call c => inferInstanceAs (Decidable
      (c.refusal s.follower = none → c.compensates s.follower.world = true))
  | .ledger change => inferInstanceAs (Decidable
      ((change s.follower.world.ledger).released = s.follower.world.ledger.released))

/-- **Every step keeps store and ledger in step.** -/
theorem World.InStep.step {s : Session (World S SimulatedLedger)}
    (hs : s.follower.world.view.InStep) {st : Step SimulatedLedger} (hst : s.Compensates st) :
    (s.step st).follower.world.view.InStep := by
  cases st with
  | call c =>
    exact c.start_world (P := fun w => w.view.InStep) hs fun hrefusal =>
      c.work_inStep hs _ _ (hst hrefusal)
  | ledger change =>
    have hst' : (change s.follower.world.ledger).released
      = s.follower.world.ledger.released := hst
    refine hs.of_same rfl fun t => ?_
    show (change s.follower.world.ledger).isReleased t = s.follower.world.ledger.isReleased t
    rw [SimulatedLedger.isReleased, hst', SimulatedLedger.isReleased]

end

/-- **A transaction is released exactly when its poll is approved.**  In every run that starts from
an empty store and a ledger with nothing released, with any calls in any order, over a store that
may fail at any call and a ledger whose releases and undoings are made to fail at will, as long as
what a failing call takes back is taken back with success. -/
theorem released_iff_approved {φ : Type} [FaultSource φ]
    (f : Follower (World (Faulty φ MemoryStore) SimulatedLedger))
    (hempty : f.world.store.store = .empty) (hnothing : f.world.ledger.released = ∅)
    (steps : List (Step SimulatedLedger))
    (hsteps : Session.Permits Session.Compensates (.start f) steps) (t : Hash) :
    let w := ((Session.start f).run steps).follower.world
    w.ledger.isReleased t = true ↔
      ∃ p, w.store.store.polls.find? t = some p ∧ p.status = .approved := by
  have hstart : (Session.start f).follower.world.view.InStep := by
    have hview : (Session.start f).follower.world.view.store = .empty := hempty
    refine ⟨?_, fun u => ?_⟩
    · rw [hview]
      exact MemoryStore.keyed_empty
    · have hledger : (Session.start f).follower.world.view.ledger.released = ∅ := hnothing
      rw [SimulatedLedger.isReleased, hledger, hview]
      constructor
      · intro h
        cases h
      · rintro ⟨p, hp, -⟩
        cases hp
  have hrun := Session.run_induction (P := fun s => s.follower.world.view.InStep)
    (fun s st hs hst => hs.step hst) hstart hsteps
  exact hrun.released t

/-- Two transactions are due at one height, and the ledger does not know the second one: the release
of the first one is taken back. -/
theorem released_iff_approved_undone :
    let other : Hash := ⟨List.replicate 32 1, rfl⟩
    let f : Follower (World (Faulty FaultPlan MemoryStore) SimulatedLedger) :=
      .start ⟨⟨[], .empty⟩, .releasing .zero⟩ .standard 0
    let steps : List (Step SimulatedLedger) := [.call (.register (.single .zero 2)),
      .call (.register (.single other 2)), .call (.castVote .zero ⟨7⟩),
      .call (.castVote other ⟨7⟩), .call (.applyBlock 1), .call (.applyBlock 2)]
    let s := (Session.start f).run steps
    let w := s.follower.world
    f.world.store.store = .empty ∧ f.world.ledger.released = ∅ ∧
    Session.Permits Session.Compensates (.start f) steps ∧
    s.follower.halt.isSome = true ∧
    (w.ledger.isReleased .zero = true ↔
      ∃ p, w.store.store.polls.find? .zero = some p ∧ p.status = .approved) := by
  exact ⟨rfl, rfl, by decide +kernel, by decide +kernel,
    released_iff_approved _ rfl rfl _ (by decide +kernel) _⟩

end Finality
