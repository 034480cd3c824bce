import Finality.Action

/-!
# What actions are bound to do

`x.wp Q E s` says that `x`, started from `s`, either succeeds with an answer and a state that `Q`
allows, or fails with an error and a state that `E` allows.  An action always does one of the two,
so a statement about an action is a statement about both ways it can end.

* `wp_bind` — one action after another: what the second must achieve is what the first must lead
  to.
* `wp_mapError`, `wp_outcome` — errors renamed, and errors made answers.
* `wp.mono` — what is allowed may be widened.
* `wp.of_ok`, `wp.of_error`, `exists_of_start_bind`, `error_of_start_bind` — reading off what a run
  that is at hand has done.

`x.Atomic` says that `x` leaves the state as it was if it fails.

`x.Respects R` says that `x` cannot tell two states apart that `R` relates: it answers alike, and
leaves states that `R` relates.  `x.Returns I r` says that its result is `r` wherever `I` holds.
`x.Within I E` says that `x` leaves `I` as it was, and fails only with errors that `E` allows.  All
ways of putting actions together keep to these.
-/

namespace Finality.Action

variable {σ ε δ α β : Type} {Q : α → σ → Prop} {E : ε → σ → Prop}

/-- Started from `s`, the action succeeds as `Q` allows or fails as `E` allows. -/
def wp (x : Action σ ε α) (Q : α → σ → Prop) (E : ε → σ → Prop) (s : σ) : Prop :=
  match x.start s with
  | (.ok a, s') => Q a s'
  | (.error e, s') => E e s'

theorem wp_of_start_ok {x : Action σ ε α} {s s' : σ} {a : α} (h : x.start s = (.ok a, s')) :
    x.wp Q E s ↔ Q a s' := by
  rw [wp, h]

theorem wp_of_start_error {x : Action σ ε α} {s s' : σ} {e : ε}
    (h : x.start s = (.error e, s')) : x.wp Q E s ↔ E e s' := by
  rw [wp, h]

/-! ## Reading off -/

theorem wp.of_ok {x : Action σ ε α} {s s' : σ} {a : α} (hx : x.wp Q E s)
    (h : x.start s = (.ok a, s')) : Q a s' := (wp_of_start_ok h).1 hx

theorem wp.of_error {x : Action σ ε α} {s s' : σ} {e : ε} (hx : x.wp Q E s)
    (h : x.start s = (.error e, s')) : E e s' := (wp_of_start_error h).1 hx

theorem wp.mono {Q' : α → σ → Prop} {E' : ε → σ → Prop} {x : Action σ ε α} {s : σ}
    (hx : x.wp Q E s) (hQ : ∀ a s', Q a s' → Q' a s') (hE : ∀ e s', E e s' → E' e s') :
    x.wp Q' E' s := by
  rcases h : x.start s with ⟨e | a, s'⟩
  · exact (wp_of_start_error h).2 (hE e s' (hx.of_error h))
  · exact (wp_of_start_ok h).2 (hQ a s' (hx.of_ok h))

/-- Two actions after another succeed if both do. -/
theorem exists_of_start_bind {x : Action σ ε β} {f : β → Action σ ε α} {s s'' : σ} {a : α}
    (h : (x >>= f).start s = (.ok a, s'')) :
    ∃ b s', x.start s = (.ok b, s') ∧ (f b).start s' = (.ok a, s'') := by
  rw [start_bind] at h
  rcases hx : x.start s with ⟨e | b, s'⟩
  · rw [hx] at h
    cases h
  · rw [hx] at h
    exact ⟨b, s', rfl, h⟩

/-- Two actions after another fail if one of them does. -/
theorem error_of_start_bind {x : Action σ ε β} {f : β → Action σ ε α} {s s'' : σ} {e : ε}
    (h : (x >>= f).start s = (.error e, s'')) :
    x.start s = (.error e, s'') ∨
      ∃ b s', x.start s = (.ok b, s') ∧ (f b).start s' = (.error e, s'') := by
  rw [start_bind] at h
  rcases hx : x.start s with ⟨e' | b, s'⟩
  · rw [hx] at h
    cases h
    exact .inl rfl
  · rw [hx] at h
    exact .inr ⟨b, s', rfl, h⟩

/-! ## Ways of making actions -/

@[simp] theorem wp_pure (a : α) (s : σ) : (pure a : Action σ ε α).wp Q E s ↔ Q a s := Iff.rfl

@[simp] theorem wp_throw (e : ε) (s : σ) : (throw e : Action σ ε α).wp Q E s ↔ E e s := Iff.rfl

theorem wp_bind (x : Action σ ε β) (f : β → Action σ ε α) (s : σ) :
    (x >>= f).wp Q E s ↔ x.wp (fun b s' => (f b).wp Q E s') E s := by
  rcases h : x.start s with ⟨e | b, s'⟩
  · rw [wp_of_start_error h, wp, start_bind, h]
  · rw [wp_of_start_ok h, wp, start_bind, h, wp]

theorem wp_mapError (f : δ → ε) (x : Action σ δ α) (s : σ) :
    (x.mapError f).wp Q E s ↔ x.wp Q (fun e => E (f e)) s := by
  rcases h : x.start s with ⟨e | a, s'⟩
  · rw [wp_of_start_error h, wp, start_mapError, h]
  · rw [wp_of_start_ok h, wp, start_mapError, h]

theorem wp_outcome {Q : Except δ α → σ → Prop} (x : Action σ δ α) (s : σ) :
    (x.outcome : Action σ ε (Except δ α)).wp Q E s
      ↔ x.wp (fun a => Q (.ok a)) (fun e => Q (.error e)) s := by
  rcases h : x.start s with ⟨e | a, s'⟩
  · rw [wp_of_start_error h, wp, start_outcome, h]
  · rw [wp_of_start_ok h, wp, start_outcome, h]

/-! ## Failing without a trace -/

/-- If the action fails, the state is as it was before. -/
def Atomic (x : Action σ ε α) : Prop := ∀ s, x.wp (fun _ _ => True) (fun _ s' => s' = s) s

namespace Atomic

variable {x : Action σ ε α}

theorem eq_of_error (hx : x.Atomic) {s s' : σ} {e : ε} (h : x.start s = (.error e, s')) : s' = s :=
  (hx s).of_error h

theorem query (f : σ → Except ε α) : Atomic (Action.query f) := by
  intro s
  unfold wp
  rw [start_query]
  cases f s with
  | error e => rfl
  | ok a => trivial

theorem transaction (f : σ → Except ε (α × σ)) : Atomic (Action.transaction f) := by
  intro s
  unfold wp
  rw [start_transaction]
  cases f s with
  | error e => rfl
  | ok r => trivial

theorem map (hx : x.Atomic) (f : α → β) : Atomic (do return f (← x)) := by
  intro s
  rw [wp_bind]
  exact (hx s).mono (fun _ _ _ => trivial) fun _ _ h => h

end Atomic

/-! ## Runs side by side -/

/-- From two states that `R` relates, the action answers alike and leaves states that `R`
relates. -/
def Respects (R : σ → σ → Prop) (x : Action σ ε α) : Prop :=
  ∀ s s', R s s' → (x.start s).1 = (x.start s').1 ∧ R (x.start s).2 (x.start s').2

namespace Respects

variable {R : σ → σ → Prop}

theorem pure (a : α) : Respects R (Pure.pure a : Action σ ε α) := by
  intro s s' h
  exact ⟨rfl, h⟩

theorem throw (e : ε) : Respects R (MonadExcept.throw e : Action σ ε α) := by
  intro s s' h
  exact ⟨rfl, h⟩

theorem bind {x : Action σ ε β} {f : β → Action σ ε α} (hx : Respects R x)
    (hf : ∀ b, Respects R (f b)) : Respects R (x >>= f) := by
  intro s s' h
  obtain ⟨hanswer, hstate⟩ := hx s s' h
  rw [start_bind, start_bind]
  rcases hs : x.start s with ⟨e | b, t⟩
  · rcases hs' : x.start s' with ⟨e' | b', t'⟩
    · rw [hs, hs'] at hanswer hstate
      cases hanswer
      exact ⟨rfl, hstate⟩
    · rw [hs, hs'] at hanswer
      cases hanswer
  · rcases hs' : x.start s' with ⟨e' | b', t'⟩
    · rw [hs, hs'] at hanswer
      cases hanswer
    · rw [hs, hs'] at hanswer hstate
      cases hanswer
      exact hf b t t' hstate

theorem mapError {x : Action σ δ α} (hx : Respects R x) (f : δ → ε) :
    Respects R (x.mapError f) := by
  intro s s' h
  obtain ⟨hanswer, hstate⟩ := hx s s' h
  rw [start_mapError, start_mapError]
  rcases hs : x.start s with ⟨r, t⟩
  rcases hs' : x.start s' with ⟨r', t'⟩
  rw [hs, hs'] at hanswer hstate
  cases hanswer
  cases r <;> exact ⟨rfl, hstate⟩

theorem outcome {x : Action σ δ α} (hx : Respects R x) :
    Respects R (x.outcome : Action σ ε (Except δ α)) := by
  intro s s' h
  obtain ⟨hanswer, hstate⟩ := hx s s' h
  rw [start_outcome, start_outcome, hanswer]
  exact ⟨rfl, hstate⟩

theorem forM {f : β → Action σ ε Unit} (hf : ∀ b, Respects R (f b)) (bs : List β) :
    Respects R (bs.forM f) := by
  induction bs with
  | nil => exact pure ()
  | cons b bs ih => exact bind (hf b) fun _ => ih

end Respects

/-! ## Known results -/

/-- Started where `I` holds, the action has this result, and `I` holds again. -/
def Returns (I : σ → Prop) (r : Except ε α) (x : Action σ ε α) : Prop :=
  ∀ s, I s → (x.start s).1 = r ∧ I (x.start s).2

namespace Returns

variable {I : σ → Prop} {r : Except ε α} {x : Action σ ε α}

theorem pure (a : α) : Returns I (.ok a) (Pure.pure a : Action σ ε α) := fun _ hs => ⟨rfl, hs⟩

theorem bind {x : Action σ ε β} {f : β → Action σ ε α} {b : β} (hx : Returns I (.ok b) x)
    (hf : Returns I r (f b)) : Returns I r (x >>= f) := by
  intro s hs
  obtain ⟨hanswer, hkept⟩ := hx s hs
  rcases hrun : x.start s with ⟨_, s'⟩
  rw [hrun] at hanswer hkept
  cases hanswer
  rw [start_bind, hrun]
  exact hf s' hkept

/-- An action that cannot tell the states where `I` holds apart has one result in all of them. -/
theorem of_respects (hx : Respects (fun s s' => I s ∧ I s') x) {s : σ} (hs : I s) :
    Returns I (x.start s).1 x := by
  intro s' hs'
  obtain ⟨hanswer, hkept, -⟩ := hx s' s ⟨hs', hs⟩
  exact ⟨hanswer, hkept⟩

theorem respects (hx : Returns I r x) : Respects (fun s s' => I s ∧ I s') x := by
  rintro s s' ⟨hs, hs'⟩
  exact ⟨(hx s hs).1.trans (hx s' hs').1.symm, (hx s hs).2, (hx s' hs').2⟩

theorem wp (hx : Returns I r x) {s : σ} (hs : I s) :
    x.wp (fun a s' => r = .ok a ∧ I s') (fun e s' => r = .error e ∧ I s') s := by
  obtain ⟨rfl, hkept⟩ := hx s hs
  rcases hrun : x.start s with ⟨e | a, s'⟩
  · rw [hrun] at hkept
    exact (wp_of_start_error hrun).2 ⟨rfl, hkept⟩
  · rw [hrun] at hkept
    exact (wp_of_start_ok hrun).2 ⟨rfl, hkept⟩

end Returns

/-! ## Staying within bounds -/

/-- Started where `I` holds, the action leaves a state where `I` holds, and fails only with errors
that `E` allows. -/
def Within (I : σ → Prop) (E : ε → Prop) (x : Action σ ε α) : Prop :=
  ∀ s, I s → x.wp (fun _ => I) (fun e s' => E e ∧ I s') s

namespace Within

variable {I : σ → Prop} {E : ε → Prop}

/-- Without bounds there is nothing to keep to. -/
theorem unbounded (x : Action σ ε α) : Within (fun _ => True) (fun _ => True) x := by
  intro s _
  rcases hx : x.start s with ⟨e | a, s'⟩
  · exact (wp_of_start_error hx).2 ⟨trivial, trivial⟩
  · exact (wp_of_start_ok hx).2 trivial

theorem pure (a : α) : Within I E (Pure.pure a : Action σ ε α) := by
  intro s hs
  exact hs

theorem throw {e : ε} (he : E e) : Within I E (MonadExcept.throw e : Action σ ε α) := by
  intro s hs
  exact ⟨he, hs⟩

theorem bind {x : Action σ ε β} {f : β → Action σ ε α} (hx : Within I E x)
    (hf : ∀ b, Within I E (f b)) : Within I E (x >>= f) := by
  intro s hs
  rw [wp_bind]
  exact (hx s hs).mono (fun b s' hs' => hf b s' hs') fun _ _ he => he

theorem mapError {D : δ → Prop} {x : Action σ δ α} (hx : Within I D x) {f : δ → ε}
    (hf : ∀ d, D d → E (f d)) : Within I E (x.mapError f) := by
  intro s hs
  rw [wp_mapError]
  exact (hx s hs).mono (fun _ _ hs' => hs') fun d _ hd => ⟨hf d hd.1, hd.2⟩

theorem outcome {D : δ → Prop} {x : Action σ δ α} (hx : Within I D x) :
    Within I E (x.outcome : Action σ ε (Except δ α)) := by
  intro s hs
  rw [wp_outcome]
  exact (hx s hs).mono (fun _ _ hs' => hs') fun _ _ hd => hd.2

theorem forM {f : β → Action σ ε Unit} (hf : ∀ b, Within I E (f b)) (bs : List β) :
    Within I E (bs.forM f) := by
  induction bs with
  | nil => exact pure ()
  | cons b bs ih => exact bind (hf b) fun _ => ih

theorem foldlM {f : α → β → Action σ ε α} (hf : ∀ a b, Within I E (f a b)) (bs : List β) (a : α) :
    Within I E (bs.foldlM f a) := by
  induction bs generalizing a with
  | nil => exact pure a
  | cons b bs ih =>
    rw [List.foldlM_cons]
    exact bind (hf a b) ih

end Within

end Finality.Action
