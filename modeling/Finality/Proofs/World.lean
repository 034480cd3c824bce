import Finality.Engine.Error
import Finality.Proofs.Action
import Finality.Proofs.Store.Faithful
import Finality.World

/-!
# Worlds by what they hold

A world over a faithful store is seen as its *view*: the contents of the store, beside the ledger.
`Yields x v Q E` says that `x`, started from any world with the view `v`, ends with an answer and a
view that `Q` allows, or with an error and a view that `E` allows.  Two worlds with one view may
differ in which calls are going to fail, so a call of the store has two rules to satisfy: one for
what it does, and one for the failure of the store, if it may fail.

* `Yields.bind`, `Yields.mono`, `Yields.outcome` — how actions are put together.
* `yields_findPoll`, `yields_insertVote`, ... — one rule for each call of the store.
* `Yields.ledger` — a call of the ledger does what it does to the ledger of the view.
  `Yields.returned` — a call whose result is known leaves the store alone.
-/

namespace Finality

variable {S L ε δ α β : Type}

/-- The contents of the store, beside the ledger. -/
def World.view [PollStore S] [VoteStore S] [FaithfulStore S] (w : World S L) :
    World MemoryStore L :=
  ⟨FaithfulStore.contents w.store, w.ledger⟩

/-- A world over a store in memory is its own view. -/
@[simp] theorem World.view_memory (w : World MemoryStore L) : w.view = w := rfl

/-- Worlds that look alike have the same ledger. -/
theorem World.ledger_of_view [PollStore S] [VoteStore S] [FaithfulStore S] {w w' : World S L}
    (h : w.view = w'.view) : w.ledger = w'.ledger := by
  have hledger := congrArg World.ledger h
  exact hledger

/-- One action of the ledger after another. -/
theorem World.onLedger_bind (x : Action L ε α) (f : α → Action L ε β) :
    (World.onLedger (x >>= f) : Action (World S L) ε β)
      = World.onLedger x >>= fun a => World.onLedger (f a) := by
  refine funext fun w => ?_
  change (World.onLedger (x >>= f)).start w
    = (World.onLedger x >>= fun a => World.onLedger (f a)).start w
  rw [Action.start_bind]
  unfold World.onLedger
  rw [Action.start_onPart, Action.start_onPart, Action.start_bind]
  rcases x.start w.ledger with ⟨e | a, l⟩
  · rfl
  · rfl

variable [PollStore S] [VoteStore S] [FaithfulStore S]
  {v : World MemoryStore L} {Q : α → World MemoryStore L → Prop}
  {E : ε → World MemoryStore L → Prop}

/-- From every world with this view, the action succeeds as `Q` allows or fails as `E` allows. -/
def Yields (x : Action (World S L) ε α) (v : World MemoryStore L)
    (Q : α → World MemoryStore L → Prop) (E : ε → World MemoryStore L → Prop) : Prop :=
  ∀ w : World S L, w.view = v → x.wp (fun a w' => Q a w'.view) (fun e w' => E e w'.view) w

/-! ## Reading off -/

namespace Yields

theorem of_ok {x : Action (World S L) ε α} {w w' : World S L} {a : α} (h : Yields x w.view Q E)
    (hx : x.start w = (.ok a, w')) : Q a w'.view := (h w rfl).of_ok hx

theorem of_error {x : Action (World S L) ε α} {w w' : World S L} {e : ε}
    (h : Yields x w.view Q E) (hx : x.start w = (.error e, w')) : E e w'.view :=
  (h w rfl).of_error hx

theorem mono {Q' : α → World MemoryStore L → Prop} {E' : ε → World MemoryStore L → Prop}
    {x : Action (World S L) ε α} (h : Yields x v Q E) (hQ : ∀ a v', Q a v' → Q' a v')
    (hE : ∀ e v', E e v' → E' e v') : Yields x v Q' E' :=
  fun w hw => (h w hw).mono (fun a w' => hQ a w'.view) fun e w' => hE e w'.view

theorem and {Q' : α → World MemoryStore L → Prop} {E' : ε → World MemoryStore L → Prop}
    {x : Action (World S L) ε α} (h : Yields x v Q E) (h' : Yields x v Q' E') :
    Yields x v (fun a v' => Q a v' ∧ Q' a v') (fun e v' => E e v' ∧ E' e v') := by
  intro w hw
  rcases hx : x.start w with ⟨e | a, w'⟩
  · exact (Action.wp_of_start_error hx).2 ⟨(h w hw).of_error hx, (h' w hw).of_error hx⟩
  · exact (Action.wp_of_start_ok hx).2 ⟨(h w hw).of_ok hx, (h' w hw).of_ok hx⟩

/-! ## Putting actions together -/

theorem pure {a : α} (h : Q a v) : Yields (Pure.pure a : Action (World S L) ε α) v Q E := by
  rintro w rfl
  exact h

theorem throw {e : ε} (h : E e v) :
    Yields (MonadExcept.throw e : Action (World S L) ε α) v Q E := by
  rintro w rfl
  exact h

theorem bind {x : Action (World S L) ε β} {f : β → Action (World S L) ε α}
    (h : Yields x v (fun b v' => Yields (f b) v' Q E) E) : Yields (x >>= f) v Q E :=
  fun w hw => (Action.wp_bind x f w).2 ((h w hw).mono (fun _ w' hf => hf w' rfl) fun _ _ he => he)

theorem mapError {x : Action (World S L) δ α} {f : δ → ε}
    (h : Yields x v Q fun e => E (f e)) : Yields (x.mapError f) v Q E :=
  fun w hw => (Action.wp_mapError f x w).2 (h w hw)

theorem inStore {E : EngineError → World MemoryStore L → Prop}
    {x : Action (World S L) StoreError α} (h : Yields x v Q fun e => E (.store e)) :
    Yields (Finality.inStore x) v Q E := h.mapError

theorem inLedger {E : EngineError → World MemoryStore L → Prop}
    {x : Action (World S L) LedgerError α} (h : Yields x v Q fun e => E (.ledger e)) :
    Yields (Finality.inLedger x) v Q E := h.mapError

theorem outcome {Q : Except δ α → World MemoryStore L → Prop} {x : Action (World S L) δ α}
    (h : Yields x v (fun a => Q (.ok a)) fun e => Q (.error e)) :
    Yields (x.outcome : Action (World S L) ε (Except δ α)) v Q E :=
  fun w hw => (Action.wp_outcome x w).2 (h w hw)

/-- A loop over a list: `I` holds with all members ahead, and each round leads from `I` with a
member ahead to `I` without it. -/
theorem forM {I : List β → World MemoryStore L → Prop} {f : β → Action (World S L) ε Unit}
    (hstep : ∀ b rest v', I (b :: rest) v' → Yields (f b) v' (fun _ => I rest) E) :
    ∀ {bs : List β} {v : World MemoryStore L}, I bs v →
      Yields (bs.forM f) v (fun _ => I []) E
  | [], _, h => Yields.pure h
  | b :: bs, v, h => by
    change Yields (f b >>= fun _ => bs.forM f) v _ _
    exact .bind ((hstep b bs v h).mono (fun _ _ hI => forM hstep hI) fun _ _ he => he)

/-- A loop that carries a value: `I` relates the value to the members that are ahead. -/
theorem foldlM {γ : Type} {I : γ → List β → World MemoryStore L → Prop}
    {f : γ → β → Action (World S L) ε γ}
    (hstep : ∀ c b rest v', I c (b :: rest) v' → Yields (f c b) v' (fun c' => I c' rest) E) :
    ∀ {bs : List β} {c : γ} {v : World MemoryStore L}, I c bs v →
      Yields (bs.foldlM f c) v (fun c' => I c' []) E
  | [], _, _, h => Yields.pure h
  | b :: bs, c, v, h => by
    rw [List.foldlM_cons]
    exact .bind ((hstep c b bs v h).mono (fun _ _ hI => foldlM hstep hI) fun _ _ he => he)

/-! ## Calls -/

/-- A call of the store does what it does in memory, or fails where it may. -/
theorem store {E : StoreError → World MemoryStore L → Prop} {x : Action S StoreError α}
    {y : Action MemoryStore StoreError α} {fallible : Prop}
    (h : Mirrors FaithfulStore.contents fallible x y)
    (hy : y.wp (fun a s => Q a { v with store := s }) (fun e s => E e { v with store := s })
      v.store)
    (hf : fallible → ∀ e, E e v) : Yields (World.onStore x) v Q E := by
  rintro w rfl
  rcases hx : x.start w.store with ⟨r, s⟩
  have hworld : (World.onStore x : Action (World S L) StoreError α).start w
      = (r, { w with store := s }) := by
    rw [World.onStore, Action.start_onPart, hx]
  rcases h w.store with hmirror | ⟨hfallible, e, he, hs⟩
  · rw [hx] at hmirror
    cases r with
    | ok a => exact (Action.wp_of_start_ok hworld).2 (hy.of_ok hmirror.symm)
    | error e => exact (Action.wp_of_start_error hworld).2 (hy.of_error hmirror.symm)
  · rw [hx] at he hs
    cases he
    refine (Action.wp_of_start_error hworld).2 ?_
    have hview : World.view ({ w with store := s } : World S L) = w.view :=
      congrArg (fun c => (⟨c, w.ledger⟩ : World MemoryStore L)) hs
    rw [hview]
    exact hf hfallible e

/-- A call of the ledger does what it does to the ledger of the view. -/
theorem ledger {x : Action L ε α}
    (h : x.wp (fun a l => Q a { v with ledger := l }) (fun e l => E e { v with ledger := l })
      v.ledger) : Yields (World.onLedger x : Action (World S L) ε α) v Q E := by
  rintro w rfl
  rcases hx : x.start w.ledger with ⟨r, l⟩
  have hworld : (World.onLedger x : Action (World S L) ε α).start w
      = (r, { w with ledger := l }) := by
    rw [World.onLedger, Action.start_onPart, hx]
  cases r with
  | ok a => exact (Action.wp_of_start_ok hworld).2 (h.of_ok hx)
  | error e => exact (Action.wp_of_start_error hworld).2 (h.of_error hx)

/-- A call of the ledger with a known result has that result, and does nothing to the store. -/
theorem returned {Λ : L → Prop} {r : Except ε α} {x : Action L ε α} (hx : x.Returns Λ r)
    (h : Λ v.ledger) :
    Yields (World.onLedger x : Action (World S L) ε α) v
      (fun a v' => r = .ok a ∧ v'.store = v.store ∧ Λ v'.ledger)
      (fun e v' => r = .error e ∧ v'.store = v.store ∧ Λ v'.ledger) :=
  .ledger ((hx.wp h).mono (fun _ _ hr => ⟨hr.1, rfl, hr.2⟩) fun _ _ hr => ⟨hr.1, rfl, hr.2⟩)

end Yields

section

variable {E : StoreError → World MemoryStore L → Prop}
  (hf : FaithfulStore.fallible S → ∀ e, E e v)
include hf

theorem yields_findPoll {key : Hash} {Q : Option Poll → World MemoryStore L → Prop}
    (h : Q (v.store.polls.find? key) v) :
    Yields (PollStore.findPoll key : Action (World S L) StoreError _) v Q E :=
  .store (FaithfulStore.findPoll key) h hf

theorem yields_pollsFinishingAt {height : Height} {Q : List Poll → World MemoryStore L → Prop}
    (h : Q (v.store.pollsWhere (·.finishHeight = height)) v) :
    Yields (PollStore.pollsFinishingAt height : Action (World S L) StoreError _) v Q E :=
  .store (FaithfulStore.pollsFinishingAt height) h hf

theorem yields_pollsCreatedAt {height : Height} {Q : List Hash → World MemoryStore L → Prop}
    (h : Q ((v.store.pollsWhere (·.createdHeight = height)).map Poll.key) v) :
    Yields (PollStore.pollsCreatedAt height : Action (World S L) StoreError _) v Q E :=
  .store (FaithfulStore.pollsCreatedAt height) h hf

theorem yields_findVote {poll : Hash} {voter : AccountId}
    {Q : Option Vote → World MemoryStore L → Prop}
    (h : Q (v.store.votes.find? ⟨poll, voter⟩) v) :
    Yields (VoteStore.findVote poll voter : Action (World S L) StoreError _) v Q E :=
  .store (FaithfulStore.findVote poll voter) h hf

theorem yields_votesOn {poll : Hash} {Q : List Vote → World MemoryStore L → Prop}
    (h : Q (v.store.votesOn poll) v) :
    Yields (VoteStore.votesOn poll : Action (World S L) StoreError _) v Q E :=
  .store (FaithfulStore.votesOn poll) h hf

theorem yields_votesCastAt {height : Height}
    {Q : List (Hash × AccountId) → World MemoryStore L → Prop}
    (h : Q (v.store.votesCastAt height) v) :
    Yields (VoteStore.votesCastAt height : Action (World S L) StoreError _) v Q E :=
  .store (FaithfulStore.votesCastAt height) h hf

theorem yields_insertPoll {p : Poll} {Q : Unit → World MemoryStore L → Prop}
    (hnew : v.store.polls.find? p.key = none)
    (h : Q () { v with store := { v.store with polls := v.store.polls.insert p.key p } }) :
    Yields (PollStore.insertPoll p : Action (World S L) StoreError _) v Q E := by
  refine .store (FaithfulStore.insertPoll p) (Action.wp_of_start_ok ?_ |>.2 h) hf
  have hcontains := Table.contains_eq_false_iff.2 hnew
  simp [PollStore.insertPoll, Action.transaction, MemoryStore.insertPoll, hcontains, Except.map]

theorem yields_insertVote {x : Vote} {Q : Unit → World MemoryStore L → Prop}
    (hnew : v.store.votes.find? x.id = none)
    (h : Q () { v with store := { v.store with votes := v.store.votes.insert x.id x } }) :
    Yields (VoteStore.insertVote x : Action (World S L) StoreError _) v Q E := by
  refine .store (FaithfulStore.insertVote x) (Action.wp_of_start_ok ?_ |>.2 h) hf
  have hcontains := Table.contains_eq_false_iff.2 hnew
  simp [VoteStore.insertVote, Action.transaction, MemoryStore.insertVote, hcontains, Except.map]

theorem yields_deletePoll {key : Hash} {Q : Bool → World MemoryStore L → Prop}
    (h : Q (v.store.polls.contains key)
      { v with store := { v.store with polls := v.store.polls.erase key } }) :
    Yields (PollStore.deletePoll key : Action (World S L) StoreError _) v Q E :=
  .store (FaithfulStore.deletePoll key) h hf

theorem yields_deleteVote {poll : Hash} {voter : AccountId}
    {Q : Bool → World MemoryStore L → Prop}
    (h : Q (v.store.votes.contains ⟨poll, voter⟩)
      { v with store := { v.store with votes := v.store.votes.erase ⟨poll, voter⟩ } }) :
    Yields (VoteStore.deleteVote poll voter : Action (World S L) StoreError _) v Q E :=
  .store (FaithfulStore.deleteVote poll voter) h hf

end

end Finality
