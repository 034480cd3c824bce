/-!
# Actions on a state

The engine works against stores and a ledger that change under it and may fail at any call.  An
`Action σ ε α` is a computation on a state `σ` that answers `α` or fails with `ε`; the state it
leaves is there in both cases, because a failing computation may have done half of its work.

`Action.query` only reads, `Action.transaction` changes the state only if it succeeds, and
`Action.onPart` runs an action on one part of a larger state.

The view of an action is `start`.  Each way of making an action has one lemma that says what it
does to that view, and `Action.ext_start` says that an action is determined by it.
-/

namespace Finality

/-- Computations on a state `σ` that may fail with `ε`, leaving a state in either case. -/
abbrev Action (σ ε : Type) := ExceptT ε (StateM σ)

namespace Action

variable {σ τ ε δ α β : Type}

/-- Runs an action from a state: its result, with the state it leaves. -/
def start (x : Action σ ε α) (s : σ) : Except ε α × σ := ExceptT.run x s

/-- The action with this behaviour. -/
def ofFunction (f : σ → Except ε α × σ) : Action σ ε α := ExceptT.mk f

/-- Reads the state and leaves it as it is. -/
def query (f : σ → Except ε α) : Action σ ε α := ofFunction fun s => (f s, s)

/-- Works on the state and keeps the work only if it succeeds. -/
def transaction (f : σ → Except ε (α × σ)) : Action σ ε α := ofFunction fun s =>
  match f s with
  | .ok (x, s') => (.ok x, s')
  | .error e => (.error e, s)

/-- The same action, its errors seen as errors of another type. -/
def mapError (f : ε → δ) (x : Action σ ε α) : Action σ δ α := ofFunction fun s =>
  match x.start s with
  | (.ok a, s') => (.ok a, s')
  | (.error e, s') => (.error (f e), s')

/-- The result of an action as a value, so that the action after it is reached in either case. -/
def outcome (x : Action σ ε α) : Action σ δ (Except ε α) := ofFunction fun s =>
  match x.start s with
  | (r, s') => (.ok r, s')

/-- Runs an action on one part of a state. -/
def onPart (get : τ → σ) (set : σ → τ → τ) (x : Action σ ε α) : Action τ ε α := ofFunction fun t =>
  match x.start (get t) with
  | (r, s) => (r, set s t)

/-! ## What an action does -/

/-- An action is determined by what it does from every state. -/
theorem ext_start {x y : Action σ ε α} (h : ∀ s, x.start s = y.start s) : x = y := funext h

@[simp] theorem start_ofFunction (f : σ → Except ε α × σ) (s : σ) :
    (ofFunction f).start s = f s := rfl

@[simp] theorem start_pure (a : α) (s : σ) : (pure a : Action σ ε α).start s = (.ok a, s) := rfl

@[simp] theorem start_throw (e : ε) (s : σ) :
    (throw e : Action σ ε α).start s = (.error e, s) := rfl

@[simp] theorem start_get (s : σ) : (get : Action σ ε σ).start s = (.ok s, s) := rfl

@[simp] theorem start_modify (f : σ → σ) (s : σ) :
    (modify f : Action σ ε PUnit).start s = (.ok ⟨⟩, f s) := rfl

/-- The second of two actions starts where the first one has ended, unless that has failed. -/
theorem start_bind (x : Action σ ε α) (f : α → Action σ ε β) (s : σ) :
    (x >>= f).start s =
      match x.start s with
      | (.ok a, s') => (f a).start s'
      | (.error e, s') => (.error e, s') := by
  change (ExceptT.bindCont f (x.start s).1).run (x.start s).2 = _
  rcases x.start s with ⟨_ | _, _⟩ <;> rfl

@[simp] theorem start_query (f : σ → Except ε α) (s : σ) : (query f).start s = (f s, s) := rfl

theorem start_transaction (f : σ → Except ε (α × σ)) (s : σ) :
    (transaction f).start s =
      match f s with
      | .ok (a, s') => (.ok a, s')
      | .error e => (.error e, s) := rfl

theorem start_mapError (f : ε → δ) (x : Action σ ε α) (s : σ) :
    (x.mapError f).start s =
      match x.start s with
      | (.ok a, s') => (.ok a, s')
      | (.error e, s') => (.error (f e), s') := rfl

@[simp] theorem start_outcome (x : Action σ ε α) (s : σ) :
    (x.outcome : Action σ δ (Except ε α)).start s = (.ok (x.start s).1, (x.start s).2) := rfl

@[simp] theorem start_onPart (get : τ → σ) (set : σ → τ → τ) (x : Action σ ε α) (t : τ) :
    (x.onPart get set).start t = ((x.start (get t)).1, set (x.start (get t)).2 t) := rfl

end Action

end Finality
