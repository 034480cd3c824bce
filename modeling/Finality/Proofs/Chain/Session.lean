import Finality.Chain.Follower
import Finality.Ledger.Simulated
import Finality.Proofs.Action
import Finality.World

/-!
# Sessions

A follower is called again and again: polls are registered, votes cast, blocks applied and taken
back.  A `Session` is a follower with the log of the calls made so far and their answers.

* `Call.start_action` — what a call does: it is refused and changes nothing, or it does its work on
  the store and the ledger, and the follower moves on or halts.
* `Call.start_silence` — nothing depends on the listeners.
* `Session.run` — a session goes on by calls and by changes that the ledger undergoes meanwhile;
  `Session.Permits` says that every step of a run was allowed when it was taken.
* `Session.run_induction` — what holds at the start and is kept by every allowed step holds at the
  end.
-/

namespace Finality

variable {σ S L : Type}

/-! ## Calls -/

/-- A call of a follower. -/
inductive Call where
  /-- Registers the poll of a transaction. -/
  | register (r : PollRequest)
  /-- Casts a vote. -/
  | castVote (poll : Hash) (voter : AccountId)
  /-- Applies the block at a height. -/
  | applyBlock (height : Height)
  /-- Takes back the block at a height. -/
  | popBlock (height : Height)
deriving DecidableEq

/-- What a call answers if it does not fail. -/
inductive Reply where
  /-- The poll that was registered. -/
  | registered (p : Poll)
  /-- What became of the vote. -/
  | voted (o : VoteOutcome)
  /-- What became of polls. -/
  | events (es : List PollEvent)
deriving DecidableEq

namespace Call

/-- The call itself. -/
def action [PollStore σ] [VoteStore σ] [Ledger σ] : Call → Action (Follower σ) NodeError Reply
  | .register r => do return .registered (← Follower.register r)
  | .castVote poll voter => do return .voted (← Follower.castVote poll voter)
  | .applyBlock height => do return .events (← Follower.applyBlock height)
  | .popBlock height => do return .events (← Follower.popBlock height)

/-- Why a follower does not even begin with a call: it has halted, or the block is not the one that
is expected. -/
def refusal (f : Follower σ) (c : Call) : Option NodeError :=
  match f.halt with
  | some h => some (.halted h.height h.reason)
  | none =>
    match c with
    | .register _ | .castVote .. => none
    | .applyBlock height =>
      if height ≠ f.height + 1 ∨ height = 0 then some (.outOfOrder (f.height + 1) height) else none
    | .popBlock height =>
      if height ≠ f.height ∨ height = 0 then some (.outOfOrder f.height height) else none

/-- What a call does to the store and the ledger. -/
def work [PollStore σ] [VoteStore σ] [Ledger σ] (params : Params) (height : Height) :
    Call → Action σ EngineError Reply
  | .register r => do return .registered (← Finality.register params r (height + 1))
  | .castVote poll voter => do return .voted (← Finality.castVote poll voter (height + 1))
  | .applyBlock height => do
    return .events ((← resolveHeight height).map PollEvent.ofResolved)
  | .popBlock height => do
    return .events ((← popHeight height).map PollEvent.ofReverted)

/-- The height that a call works on. -/
def workHeight (height : Height) : Call → Height
  | .register _ | .castVote .. => height + 1
  | .applyBlock height | .popBlock height => height

/-- The height of the chain once the call has succeeded. -/
def heightAfter (height : Height) : Call → Height
  | .register _ | .castVote .. => height
  | .applyBlock height => height
  | .popBlock height => height - 1

/-- The height of the chain after the call, given how its work has ended. -/
def heightLeft (height : Height) (c : Call) : Except EngineError Reply → Height
  | .ok _ => c.heightAfter height
  | .error _ => height

end Call

/-- The listeners after an answer. -/
def Reply.tell (emitEvents : Bool) (bus : EventBus) : Reply → EventBus
  | .registered _ | .voted _ => bus
  | .events es => if emitEvents then bus.emitAll es else bus

/-! ## What a call does -/

theorem Follower.start_process {α : Type} (height : Height) (x : Action σ EngineError α)
    (f : Follower σ) :
    (process height x).start f =
      match x.start f.world with
      | (.ok a, world) => (.ok a, { f with world })
      | (.error e, world) => (.error (.engine e), { f with
          world
          halt := if e.isFatal then some { height, reason := (NodeError.engine e).message }
            else f.halt }) := by
  rw [process, Action.start_bind, Action.start_outcome, inWorld, Action.start_onPart,
    Action.start_mapError]
  rcases x.start f.world with ⟨e | a, world⟩
  · dsimp only
    rw [NodeError.isFatal]
    cases e.isFatal <;> rfl
  · rfl

theorem Follower.start_checkRunning (f : Follower σ) :
    checkRunning.start f =
      match f.halt with
      | some h => (.error (.halted h.height h.reason), f)
      | none => (.ok (), f) := by
  rw [checkRunning, Action.start_bind, Action.start_get]
  dsimp only
  cases f.halt <;> rfl

variable [PollStore σ] [VoteStore σ] [Ledger σ]

theorem Follower.start_handle {f : Follower σ} (hrunning : f.halt = none) (e : ChainEvent) :
    (handle e).start f =
      if e.height ≠ f.expectedHeight e ∨ e.height = 0 then
        (.error (.outOfOrder (f.expectedHeight e) e.height), f)
      else
        match (respond e).start f.world with
        | (.ok (height, events), world) => (.ok events, { f with
            world
            height
            bus := if f.emitEvents then f.bus.emitAll events else f.bus })
        | (.error e', world) => (.error (.engine e'), { f with
            world
            halt := if e'.isFatal then
                some { height := e.height, reason := (NodeError.engine e').message }
              else f.halt }) := by
  have hcheck : checkRunning.start f = (.ok (), f) := by rw [start_checkRunning, hrunning]
  rw [handle, Action.start_bind, hcheck]
  dsimp only
  rw [Action.start_bind, Action.start_get]
  dsimp only
  split
  · rfl
  · rw [Action.start_bind, start_process]
    rcases (respond e).start f.world with ⟨e' | ⟨height, events⟩, world⟩
    · rfl
    · rfl

/-- **What a call does.**  It is refused at once and changes nothing; or it does its work, and the
follower moves on, or halts if the work has failed beyond repair. -/
theorem Call.start_action (c : Call) (f : Follower σ) :
    c.action.start f =
      match c.refusal f with
      | some e => (.error e, f)
      | none =>
        match (c.work f.params f.height).start f.world with
        | (.ok reply, world) => (.ok reply, { f with
            world
            height := c.heightAfter f.height
            bus := reply.tell f.emitEvents f.bus })
        | (.error e, world) => (.error (.engine e), { f with
            world
            halt := if e.isFatal then
                some { height := c.workHeight f.height, reason := (NodeError.engine e).message }
              else f.halt }) := by
  cases hhalt : f.halt with
  | some h =>
    cases c <;> simp [Call.action, Call.refusal, Follower.register, Follower.castVote,
      Follower.applyBlock, Follower.popBlock, Follower.handle, Action.start_bind,
      Follower.start_checkRunning, hhalt]
  | none =>
    cases c with
    | register r =>
      simp only [Call.action, Call.refusal, hhalt, Follower.register, Action.start_bind,
        Follower.start_checkRunning, Action.start_get, Follower.start_process, Call.work]
      rcases (Finality.register f.params r (f.height + 1)).start f.world with ⟨e | p, world⟩
      · rfl
      · rfl
    | castVote poll voter =>
      simp only [Call.action, Call.refusal, hhalt, Follower.castVote, Action.start_bind,
        Follower.start_checkRunning, Action.start_get, Follower.start_process, Call.work]
      rcases (Finality.castVote poll voter (f.height + 1)).start f.world with ⟨e | o, world⟩
      · rfl
      · rfl
    | applyBlock height =>
      simp only [Call.action, Call.refusal, hhalt, Follower.applyBlock, Action.start_bind,
        Follower.start_handle hhalt, ChainEvent.height, Follower.expectedHeight]
      by_cases hunexpected : height ≠ f.height + 1 ∨ height = 0
      · rw [if_pos hunexpected, if_pos hunexpected]
      · rw [if_neg hunexpected, if_neg hunexpected]
        simp only [Follower.respond, Call.work, Action.start_bind]
        rcases (resolveHeight height).start f.world with ⟨e | resolved, world⟩
        · rfl
        · rfl
    | popBlock height =>
      simp only [Call.action, Call.refusal, hhalt, Follower.popBlock, Action.start_bind,
        Follower.start_handle hhalt, ChainEvent.height, Follower.expectedHeight]
      by_cases hunexpected : height ≠ f.height ∨ height = 0
      · rw [if_pos hunexpected, if_pos hunexpected]
      · rw [if_neg hunexpected, if_neg hunexpected]
        simp only [Follower.respond, Call.work, Action.start_bind]
        rcases (popHeight height).start f.world with ⟨e | reverted, world⟩
        · rfl
        · rfl

/-- What holds of store and ledger, whether the work of a call is done or fails, holds after the
call. -/
theorem Call.start_world {P : σ → Prop} (c : Call) {f : Follower σ} (hf : P f.world)
    (hwork : c.refusal f = none →
      (c.work f.params f.height).wp (fun _ => P) (fun _ => P) f.world) :
    P (c.action.start f).2.world := by
  rw [c.start_action]
  cases hrefusal : c.refusal f with
  | some e => exact hf
  | none =>
    rcases hx : (c.work f.params f.height).start f.world with ⟨e | reply, world⟩
    · exact (hwork hrefusal).of_error hx
    · exact (hwork hrefusal).of_ok hx

/-- The same follower with nobody listening. -/
def Follower.silence (f : Follower σ) : Follower σ :=
  { f with emitEvents := false, bus := .empty }

/-- **Listeners have no influence**: a call answers the same whoever listens, and leaves the same
behind but for what the listeners have heard. -/
theorem Call.start_silence (c : Call) (f : Follower σ) :
    c.action.start f.silence = ((c.action.start f).1, (c.action.start f).2.silence) := by
  have hrefusal : c.refusal f.silence = c.refusal f := rfl
  rw [start_action, start_action, hrefusal]
  cases c.refusal f with
  | some e => rfl
  | none =>
    dsimp only [Follower.silence]
    rcases (c.work f.params f.height).start f.world with ⟨e | reply, world⟩
    · rfl
    · cases reply <;> rfl

/-! ## Sessions -/

/-- A call with its answer. -/
structure Exchange where
  /-- The call. -/
  call : Call
  /-- What the follower has answered. -/
  answer : Except NodeError Reply

/-- A follower with the calls made so far. -/
structure Session (σ : Type) where
  /-- The follower. -/
  follower : Follower σ
  /-- The calls with their answers, the latest first. -/
  log : List Exchange

/-- How a session goes on: by a call, or by a change of the ledger that is none of the follower's
doing. -/
inductive Step (L : Type) where
  /-- The follower is called. -/
  | call (c : Call)
  /-- The ledger changes. -/
  | ledger (change : L → L)

namespace Session

/-- The session in which nothing has happened. -/
def start (f : Follower σ) : Session σ := { follower := f, log := [] }

/-- The session after one more call. -/
def call (c : Call) (s : Session σ) : Session σ :=
  { follower := (c.action.start s.follower).2
    log := { call := c, answer := (c.action.start s.follower).1 } :: s.log }

variable [PollStore S] [VoteStore S] [Ledger L]

/-- The session after one more step. -/
def step (s : Session (World S L)) : Step L → Session (World S L)
  | .call c => s.call c
  | .ledger change =>
    { s with follower := { s.follower with
        world := { s.follower.world with ledger := change s.follower.world.ledger } } }

/-- The session after some more steps. -/
def run (s : Session (World S L)) (steps : List (Step L)) : Session (World S L) :=
  steps.foldl step s

/-- Every one of these steps is allowed when it is taken. -/
def Permits (allowed : Session (World S L) → Step L → Prop) :
    Session (World S L) → List (Step L) → Prop
  | _, [] => True
  | s, st :: rest => allowed s st ∧ Permits allowed (s.step st) rest

/-- Whether a run is permitted can be computed if every single step can be judged. -/
instance decidablePermits (allowed : Session (World S L) → Step L → Prop)
    [∀ s st, Decidable (allowed s st)] : (s : Session (World S L)) → (steps : List (Step L)) →
      Decidable (Permits allowed s steps)
  | _, [] => .isTrue trivial
  | s, st :: rest =>
    have := decidablePermits allowed (s.step st) rest
    inferInstanceAs (Decidable (allowed s st ∧ Permits allowed (s.step st) rest))

/-- Where everything is allowed, every run is permitted. -/
theorem permits_all {s : Session (World S L)} (steps : List (Step L)) :
    Permits (fun _ _ => True) s steps := by
  induction steps generalizing s with
  | nil => trivial
  | cons st steps ih => exact ⟨trivial, ih⟩

theorem permits_append {allowed : Session (World S L) → Step L → Prop} {s : Session (World S L)}
    {steps more : List (Step L)} :
    Permits allowed s (steps ++ more) ↔ Permits allowed s steps ∧
      Permits allowed (s.run steps) more := by
  induction steps generalizing s with
  | nil => exact ⟨fun h => ⟨trivial, h⟩, fun h => h.2⟩
  | cons st steps ih =>
    rw [List.cons_append, Permits, Permits, ih, and_assoc]
    rfl

/-- What holds at the start and is kept by every allowed step holds at the end of a run. -/
theorem run_induction {allowed : Session (World S L) → Step L → Prop}
    {P : Session (World S L) → Prop} (hstep : ∀ s st, P s → allowed s st → P (s.step st))
    {s : Session (World S L)} {steps : List (Step L)} (hs : P s) (h : Permits allowed s steps) :
    P (s.run steps) := by
  induction steps generalizing s with
  | nil => exact hs
  | cons st steps ih => exact ih (hstep s st hs h.1) h.2

end Session

/-! ## Samples -/

/-- A ledger that can release one transaction. -/
def SimulatedLedger.releasing (transaction : Hash) : SimulatedLedger :=
  SimulatedLedger.empty.defer transaction ⟨⟨1⟩, ⟨2⟩, .native, 5⟩

end Finality
