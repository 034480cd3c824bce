import Finality.Engine.Resolution
import Finality.Proofs.World

/-!
# Steps that are taken back

Resolving a height, undoing it and restoring it end alike: the ledger takes one step for each of
some transactions, then the store writes a batch, and if either fails the steps are taken back.
`commit` is that common end.

* `start_commit` — what a commit does, in terms of the ledger alone and the store alone.
* `stepsCleanly`, `commitsCleanly` — whether every call that takes a step back succeeds.
* `allOrNone_ok`, `allOrNone_error` — what the steps keep track of, and what is left of them when
  one has failed and the others have been taken back cleanly.
* `exists_of_allOrNone_error`, `exists_allOrNone_ok` — where steps stop, and when they do not.
* `commit_yields` — a commit over a ledger of which nothing is known.
* `commit_unwinds` — a failed commit, in terms of the steps that had been taken.
* `commit_ok`, `commit_error`, `commit_cleanly` — a commit that does all or nothing.
-/

namespace Finality

variable {σ S L : Type}

/-- Takes a step for each transaction and writes a batch; takes the steps back if either fails. -/
def commit [PollStore σ] (step inverse : Hash → Action σ LedgerError Unit) (keys : List Hash)
    (rs : List Resolution) : Action σ EngineError Unit := do
  allOrNone step inverse [] keys
  writeOrElse rs (compensate inverse keys.reverse)

/-! ## Taking back cleanly -/

/-- Whether taking these steps back succeeds at every one of them. -/
def takesBack (inverse : Hash → Action σ LedgerError Unit) : List Hash → σ → Bool
  | [], _ => true
  | key :: keys, s =>
    match (inverse key).start s with
    | (.ok (), s') => takesBack inverse keys s'
    | (.error _, _) => false

/-- Whether, if one of the steps fails, those taken before it are taken back with success. -/
def stepsCleanly (step inverse : Hash → Action σ LedgerError Unit) :
    (done todo : List Hash) → σ → Bool
  | _, [], _ => true
  | done, key :: todo, s =>
    match (step key).start s with
    | (.ok (), s') => stepsCleanly step inverse (key :: done) todo s'
    | (.error _, s') => takesBack inverse done s'

/-- Whether, if a step fails or the batch that follows the steps cannot be written, the steps taken
are taken back with success. -/
def commitsCleanly [PollStore S] (step inverse : Hash → Action L LedgerError Unit)
    (keys : List Hash) (rs : List Resolution) (w : World S L) : Bool :=
  stepsCleanly step inverse [] keys w.ledger &&
    match (allOrNone step inverse [] keys).start w.ledger,
      ((PollStore.applyResolutions rs).start w.store).1 with
    | (.ok (), l), .error _ => takesBack inverse keys.reverse l
    | _, _ => true

section

variable {step inverse : Hash → Action σ LedgerError Unit}

/-! ## One step after another -/

theorem start_compensate_cons (key : Hash) (keys : List Hash) (s : σ) :
    (compensate inverse (key :: keys)).start s
      = (compensate inverse keys).start ((inverse key).start s).2 := rfl

/-- Taking back always comes to its end. -/
theorem start_compensate_fst (inverse : Hash → Action σ LedgerError Unit) (keys : List Hash)
    (s : σ) :
    ((compensate inverse keys).start s).1 = .ok () := by
  induction keys generalizing s with
  | nil => rfl
  | cons key keys ih => exact ih _

theorem start_allOrNone_cons (done : List Hash) (key : Hash) (todo : List Hash) (s : σ) :
    (allOrNone step inverse done (key :: todo)).start s =
      match (step key).start s with
      | (.ok (), s') => (allOrNone step inverse (key :: done) todo).start s'
      | (.error e, s') => (.error (.ledger e), ((compensate inverse done).start s').2) := by
  rcases hkey : (step key).start s with ⟨e | ⟨⟩, s'⟩
  · have hback := start_compensate_fst inverse done s'
    rw [allOrNone, Action.start_bind, Action.start_outcome, hkey]
    dsimp only
    rw [Action.start_bind]
    rcases hx : (compensate inverse done).start s' with ⟨r, s''⟩
    rw [hx] at hback
    cases hback
    rfl
  · rw [allOrNone, Action.start_bind, Action.start_outcome, hkey]

variable {R : List Hash → σ → Prop}

/-- Taking all steps back cleanly undoes what they did. -/
theorem compensate_takesBack
    (hinverse : ∀ key done s s', R (key :: done) s → (inverse key).start s = (.ok (), s') →
      R done s') {done : List Hash} {s : σ} (hR : R done s)
    (hback : takesBack inverse done s = true) :
    R [] ((compensate inverse done).start s).2 := by
  induction done generalizing s with
  | nil => exact hR
  | cons key done ih =>
    unfold takesBack at hback
    rcases hkey : (inverse key).start s with ⟨e | ⟨⟩, s'⟩
    · rw [hkey] at hback
      cases hback
    · rw [hkey] at hback
      rw [start_compensate_cons, hkey]
      exact ih (hinverse key done s s' hR hkey) hback

/-- If every step adds itself to what is done, all of them are done in the end. -/
theorem allOrNone_ok
    (hstep : ∀ key done s s', R done s → (step key).start s = (.ok (), s') → R (key :: done) s')
    {done todo : List Hash} {s s' : σ} (hR : R done s)
    (h : (allOrNone step inverse done todo).start s = (.ok (), s')) :
    R (todo.reverse ++ done) s' := by
  induction todo generalizing done s with
  | nil =>
    cases h
    exact hR
  | cons key todo ih =>
    rw [start_allOrNone_cons] at h
    rcases hkey : (step key).start s with ⟨e | ⟨⟩, s₁⟩
    · rw [hkey] at h
      cases h
    · rw [hkey] at h
      rw [List.reverse_cons, List.append_assoc]
      exact ih (hstep key done s s₁ hR hkey) h

/-- If a step fails, and those before it are taken back cleanly, nothing is done in the end. -/
theorem allOrNone_error
    (hstep : ∀ key done s s', R done s → (step key).start s = (.ok (), s') → R (key :: done) s')
    (hfail : ∀ key done s s' e, R done s → (step key).start s = (.error e, s') → R done s')
    (hinverse : ∀ key done s s', R (key :: done) s → (inverse key).start s = (.ok (), s') →
      R done s')
    {done todo : List Hash} {s s' : σ} {e : EngineError} (hR : R done s)
    (hclean : stepsCleanly step inverse done todo s = true)
    (h : (allOrNone step inverse done todo).start s = (.error e, s')) : R [] s' := by
  induction todo generalizing done s with
  | nil => cases h
  | cons key todo ih =>
    rw [start_allOrNone_cons] at h
    unfold stepsCleanly at hclean
    rcases hkey : (step key).start s with ⟨e' | ⟨⟩, s₁⟩
    · rw [hkey] at h hclean
      cases h
      exact compensate_takesBack hinverse (hfail key done s s₁ e' hR hkey) hclean
    · rw [hkey] at h hclean
      exact ih (hstep key done s s₁ hR hkey) hclean h

/-- **Where steps stop**: if one of them fails, those before it have been taken, and what is left is
what taking these back leaves. -/
theorem exists_of_allOrNone_error {done todo : List Hash} {s s' : σ} {e : EngineError}
    (h : (allOrNone step inverse done todo).start s = (.error e, s')) :
    ∃ taken key s₁ s₂ e', taken ++ [key] <+: todo ∧ e = .ledger e' ∧
      (allOrNone step inverse done taken).start s = (.ok (), s₁) ∧
      (step key).start s₁ = (.error e', s₂) ∧
      s' = ((compensate inverse (taken.reverse ++ done)).start s₂).2 := by
  induction todo generalizing done s with
  | nil => cases h
  | cons key todo ih =>
    rw [start_allOrNone_cons] at h
    rcases hkey : (step key).start s with ⟨e' | ⟨⟩, s₁⟩
    · rw [hkey] at h
      cases h
      exact ⟨[], key, s, s₁, e', by simp, rfl, rfl, hkey, rfl⟩
    · rw [hkey] at h
      obtain ⟨taken, stop, s₂, s₃, e', hbegins, rfl, htaken, hstop, rfl⟩ := ih h
      refine ⟨key :: taken, stop, s₂, s₃, e', by simpa using hbegins, rfl, ?_, hstop, by simp⟩
      rw [start_allOrNone_cons, hkey]
      exact htaken

/-- Steps fail only for reasons that the ledger gives. -/
theorem error_of_allOrNone {done todo : List Hash} {s s' : σ} {e : EngineError}
    (h : (allOrNone step inverse done todo).start s = (.error e, s')) : ∃ e', e = .ledger e' := by
  obtain ⟨-, -, -, -, e', -, he, -⟩ := exists_of_allOrNone_error h
  exact ⟨e', he⟩

/-- Where all steps succeed, it makes no difference whether failures would be passed over. -/
theorem start_compensate_of_ok {done keys : List Hash} {s s' : σ}
    (h : (allOrNone step inverse done keys).start s = (.ok (), s')) :
    (compensate step keys).start s = (.ok (), s') := by
  induction keys generalizing done s with
  | nil => exact h
  | cons key keys ih =>
    rw [start_allOrNone_cons] at h
    rcases hkey : (step key).start s with ⟨e | ⟨⟩, s₁⟩
    · rw [hkey] at h
      cases h
    · rw [hkey] at h
      rw [start_compensate_cons, hkey]
      exact ih h

/-- **Steps that do not stand in each other's way** are all taken: each can be taken where `P` holds
of its transaction, and leaves `P` true of the others. -/
theorem exists_allOrNone_ok {P : Hash → σ → Prop}
    (hstep : ∀ key s, P key s → ∃ s', (step key).start s = (.ok (), s') ∧
      ∀ other, other ≠ key → P other s → P other s')
    {keys : List Hash} (hkeys : keys.Nodup) (done : List Hash) {s : σ} (h : ∀ key ∈ keys, P key s) :
    ∃ s', (allOrNone step inverse done keys).start s = (.ok (), s') := by
  induction keys generalizing done s with
  | nil => exact ⟨s, rfl⟩
  | cons key keys ih =>
    obtain ⟨hnew, hkeys⟩ := List.nodup_cons.1 hkeys
    obtain ⟨hkey, hrest⟩ := List.forall_mem_cons.1 h
    obtain ⟨s₁, hcall, hothers⟩ := hstep key s hkey
    rw [start_allOrNone_cons, hcall]
    exact ih hkeys (key :: done) fun other hmem =>
      hothers other (ne_of_mem_of_not_mem hmem hnew) (hrest other hmem)

end

/-! ## Ledger and store apart -/

section

variable {step inverse : Hash → Action L LedgerError Unit}

theorem start_compensate_onLedger (keys : List Hash) (w : World S L) :
    (compensate (fun key => World.onLedger (inverse key)) keys).start w
      = (.ok (), { w with ledger := ((compensate inverse keys).start w.ledger).2 }) := by
  induction keys generalizing w with
  | nil => rfl
  | cons key keys ih =>
    rw [start_compensate_cons, ih]
    rfl

theorem start_allOrNone_onLedger (done todo : List Hash) (w : World S L) :
    (allOrNone (fun key => World.onLedger (step key))
        (fun key => World.onLedger (inverse key)) done todo).start w
      = (((allOrNone step inverse done todo).start w.ledger).1,
          { w with ledger := ((allOrNone step inverse done todo).start w.ledger).2 }) := by
  induction todo generalizing done w with
  | nil => rfl
  | cons key todo ih =>
    rw [start_allOrNone_cons, start_allOrNone_cons, World.onLedger, Action.start_onPart]
    rcases hkey : (step key).start w.ledger with ⟨e | ⟨⟩, l⟩
    · dsimp only
      rw [start_compensate_onLedger]
    · exact ih _ _

/-- **What a commit does**: the ledger takes its steps, the store writes its batch, and only if the
batch is not written the steps are taken back again. -/
theorem start_commit [PollStore S] (step inverse : Hash → Action L LedgerError Unit)
    (keys : List Hash) (rs : List Resolution) (w : World S L) :
    (commit (fun key => World.onLedger (step key)) (fun key => World.onLedger (inverse key)) keys
        rs).start w =
      match (allOrNone step inverse [] keys).start w.ledger with
      | (.error e, l) => (.error e, { w with ledger := l })
      | (.ok (), l) =>
        match (PollStore.applyResolutions rs).start w.store with
        | (.ok (), s) => (.ok (), ⟨s, l⟩)
        | (.error e, s) =>
          (.error (.store e), ⟨s, ((compensate inverse keys.reverse).start l).2⟩) := by
  rw [commit, Action.start_bind, start_allOrNone_onLedger]
  rcases (allOrNone step inverse [] keys).start w.ledger with ⟨e | ⟨⟩, l⟩
  · rfl
  · dsimp only
    rw [writeOrElse, Action.start_bind, Action.start_outcome]
    rcases hwrite : (PollStore.applyResolutions rs).start w.store with ⟨e | ⟨⟩, s⟩
    · have hworld : (PollStore.applyResolutions rs : Action (World S L) StoreError Unit).start
          { w with ledger := l } = (.error e, ⟨s, l⟩) := by
        simp [PollStore.applyResolutions, World.onStore, hwrite]
      rw [hworld]
      dsimp only
      rw [Action.start_bind, start_compensate_onLedger]
      rfl
    · have hworld : (PollStore.applyResolutions rs : Action (World S L) StoreError Unit).start
          { w with ledger := l } = (.ok (), ⟨s, l⟩) := by
        simp [PollStore.applyResolutions, World.onStore, hwrite]
      rw [hworld]
      rfl

variable [PollStore S] [VoteStore S] [FaithfulStore S] {keys : List Hash} {rs : List Resolution}

/-- A commit, seen from outside: the batch is written after the steps, or the polls are as they
were, whatever has become of the ledger. -/
theorem commit_yields {v : World MemoryStore L} {Q : Unit → World MemoryStore L → Prop}
    {E : EngineError → World MemoryStore L → Prop} (hrs : (rs.map Resolution.key).Nodup)
    (hstored : ∀ r ∈ rs, v.store.polls.contains r.key = true)
    (hok : ∀ l, (allOrNone step inverse [] keys).start v.ledger = (.ok (), l) →
      Q () ⟨v.store.write rs, l⟩)
    (hledger : ∀ e l, (allOrNone step inverse [] keys).start v.ledger = (.error (.ledger e), l) →
      E (.ledger e) { v with ledger := l })
    (hstore : FaithfulStore.fallible S → ∀ e l, E (.store e) { v with ledger := l }) :
    Yields (S := S) (commit (fun key => World.onLedger (step key))
      (fun key => World.onLedger (inverse key)) keys rs) v Q E := by
  rintro w rfl
  have hcommit := start_commit step inverse keys rs w
  rcases hsteps : (allOrNone step inverse [] keys).start w.ledger with ⟨e | ⟨⟩, l⟩
  · rw [hsteps] at hcommit
    obtain ⟨e, rfl⟩ := error_of_allOrNone hsteps
    exact (Action.wp_of_start_error hcommit).2 (hledger e l hsteps)
  · rw [hsteps] at hcommit
    have happly := applyResolutions_wp hrs w.store
    rcases hwrite : (PollStore.applyResolutions rs).start w.store with ⟨e | ⟨⟩, s⟩
    · rw [hwrite] at hcommit
      refine (Action.wp_of_start_error hcommit).2 ?_
      obtain ⟨hs, hfallible | ⟨r, hr, hmissing⟩⟩ := happly.of_error hwrite
      · rw [World.view, hs]
        exact hstore hfallible e _
      · have hthere := hstored r hr
        rw [World.view, hmissing] at hthere
        cases hthere
    · rw [hwrite] at hcommit
      refine (Action.wp_of_start_ok hcommit).2 ?_
      rw [World.view, (happly.of_ok hwrite).1]
      exact hok l hsteps

/-- A commit that succeeds has taken all of its steps and written its batch. -/
theorem commit_ok {R : List Hash → L → Prop}
    (hstep : ∀ key done l l', R done l → (step key).start l = (.ok (), l') → R (key :: done) l')
    {w w' : World S L} (hrs : (rs.map Resolution.key).Nodup) (hR : R [] w.ledger)
    (h : (commit (fun key => World.onLedger (step key)) (fun key => World.onLedger (inverse key))
      keys rs).start w = (.ok (), w')) :
    (w'.view.store = w.view.store.write rs ∧
      ∀ r ∈ rs, w.view.store.polls.contains r.key = true) ∧ R keys.reverse w'.ledger := by
  rw [start_commit] at h
  rcases hsteps : (allOrNone step inverse [] keys).start w.ledger with ⟨e | ⟨⟩, l⟩
  · rw [hsteps] at h
    cases h
  · rw [hsteps] at h
    have hdone : R keys.reverse l := by simpa using allOrNone_ok hstep hR hsteps
    have happly := applyResolutions_wp hrs w.store
    rcases hwrite : (PollStore.applyResolutions rs).start w.store with ⟨e | ⟨⟩, s⟩
    · rw [hwrite] at h
      cases h
    · rw [hwrite] at h
      cases h
      exact ⟨happly.of_ok hwrite, hdone⟩

/-- **A commit that fails** has left the store alone and has taken back the steps it had taken,
which are the first of all, whether or not taking them back succeeded. -/
theorem commit_unwinds (hfail : ∀ key l l' e, (step key).start l = (.error e, l') → l' = l)
    {w w' : World S L} {e : EngineError} (hrs : (rs.map Resolution.key).Nodup)
    (h : (commit (fun key => World.onLedger (step key)) (fun key => World.onLedger (inverse key))
      keys rs).start w = (.error e, w')) :
    w'.view.store = w.view.store ∧ ∃ taken l, taken <+: keys ∧
      (allOrNone step inverse [] taken).start w.ledger = (.ok (), l) ∧
      w'.ledger = ((compensate inverse taken.reverse).start l).2 := by
  rw [start_commit] at h
  rcases hsteps : (allOrNone step inverse [] keys).start w.ledger with ⟨e | ⟨⟩, l⟩
  · rw [hsteps] at h
    cases h
    obtain ⟨taken, key, l₁, l₂, e', hbegins, -, htaken, hkey, rfl⟩ :=
      exists_of_allOrNone_error hsteps
    cases hfail key l₁ l₂ e' hkey
    rw [List.append_nil]
    exact ⟨rfl, taken, l₁, (List.prefix_append taken [key]).trans hbegins, htaken, rfl⟩
  · rw [hsteps] at h
    have happly := applyResolutions_wp hrs w.store
    rcases hwrite : (PollStore.applyResolutions rs).start w.store with ⟨e' | ⟨⟩, s⟩
    · rw [hwrite] at h
      cases h
      exact ⟨(happly.of_error hwrite).1, keys, l, List.prefix_rfl, hsteps, rfl⟩
    · rw [hwrite] at h
      cases h

/-- A commit that fails has left the store alone, and if it fails cleanly, no step is left. -/
theorem commit_error {R : List Hash → L → Prop}
    (hstep : ∀ key done l l', R done l → (step key).start l = (.ok (), l') → R (key :: done) l')
    (hfail : ∀ key done l l' e, R done l → (step key).start l = (.error e, l') → R done l')
    (hinverse : ∀ key done l l', R (key :: done) l → (inverse key).start l = (.ok (), l') →
      R done l')
    {w w' : World S L} {e : EngineError} (hrs : (rs.map Resolution.key).Nodup)
    (hclean : commitsCleanly step inverse keys rs w = true) (hR : R [] w.ledger)
    (h : (commit (fun key => World.onLedger (step key)) (fun key => World.onLedger (inverse key))
      keys rs).start w = (.error e, w')) :
    w'.view.store = w.view.store ∧ R [] w'.ledger := by
  rw [start_commit] at h
  rw [commitsCleanly, Bool.and_eq_true] at hclean
  rcases hsteps : (allOrNone step inverse [] keys).start w.ledger with ⟨e' | ⟨⟩, l⟩
  · rw [hsteps] at h
    cases h
    exact ⟨rfl, allOrNone_error hstep hfail hinverse hR hclean.1 hsteps⟩
  · rw [hsteps] at h
    have hdone : R keys.reverse l := by simpa using allOrNone_ok hstep hR hsteps
    have happly := applyResolutions_wp hrs w.store
    rcases hwrite : (PollStore.applyResolutions rs).start w.store with ⟨e' | ⟨⟩, s⟩
    · rw [hwrite] at h
      have hback := hclean.2
      rw [hsteps, hwrite] at hback
      cases h
      exact ⟨(happly.of_error hwrite).1, compensate_takesBack hinverse hdone hback⟩
    · rw [hwrite] at h
      cases h

/-- **A clean commit does all or nothing**: what the steps keep track of is done for all
transactions and the batch is written, or it is done for none and the polls are as they were. -/
theorem commit_cleanly {R : List Hash → L → Prop}
    (hstep : ∀ key done l l', R done l → (step key).start l = (.ok (), l') → R (key :: done) l')
    (hfail : ∀ key done l l' e, R done l → (step key).start l = (.error e, l') → R done l')
    (hinverse : ∀ key done l l', R (key :: done) l → (inverse key).start l = (.ok (), l') →
      R done l')
    {w : World S L} (hrs : (rs.map Resolution.key).Nodup)
    (hclean : commitsCleanly step inverse keys rs w = true) (hR : R [] w.ledger) :
    (commit (fun key => World.onLedger (step key)) (fun key => World.onLedger (inverse key)) keys
        rs).wp
      (fun _ w' => (w'.view.store = w.view.store.write rs ∧
        ∀ r ∈ rs, w.view.store.polls.contains r.key = true) ∧ R keys.reverse w'.ledger)
      (fun _ w' => w'.view.store = w.view.store ∧ R [] w'.ledger) w := by
  rcases h : (commit (fun key => World.onLedger (step key))
    (fun key => World.onLedger (inverse key)) keys rs).start w with ⟨e | ⟨⟩, w'⟩
  · exact (Action.wp_of_start_error h).2 (commit_error hstep hfail hinverse hrs hclean hR h)
  · exact (Action.wp_of_start_ok h).2 (commit_ok hstep hrs hR h)

end

end Finality
