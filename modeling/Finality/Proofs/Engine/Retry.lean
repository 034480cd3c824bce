import Finality.Proofs.Engine.Failure

/-!
# Taking a block back in several attempts

Taking a block back may fail, and may be tried again, any number of times.  What earlier attempts
have lost of the block would have been removed anyway, and what they have undone they have restored,
though the ledger may have recorded releases anew.

* `SimulatedLedger.Alike`, `World.Alike` — ledgers that differ in when releases were recorded, and
  `respects_popHeight`: taking a block back cannot tell them apart.
* `MemoryStore.Sheds.takeBack_eq` — what is missing makes no difference once the block is taken
  back.
* `World.Poppable.popHeight` — when taking a block back succeeds.
* `retried_pop_is_one_pop` — after any failed attempts, the one that meets no failure answers and
  leaves what it would have answered and left in the first place.
-/

namespace Finality

variable {S φ ε α : Type}

/-! ## Ledgers that cannot be told apart -/

namespace SimulatedLedger

/-- Releasing and undoing go alike: the same effects are known, the same calls are made to fail, and
the same transactions are released, at whatever height that was recorded. -/
structure Alike (l l' : SimulatedLedger) : Prop where
  /-- The same effects are known. -/
  deferred : l'.deferred = l.deferred
  /-- The same releases are made to fail. -/
  failingReleases : l'.failingReleases = l.failingReleases
  /-- The same undoings are made to fail. -/
  failingUndos : l'.failingUndos = l.failingUndos
  /-- The same transactions are released. -/
  released : ∀ t, l'.isReleased t = l.isReleased t

theorem respects_applyRelease (t : Hash) :
    (Ledger.applyRelease t : Action SimulatedLedger LedgerError Unit).Respects Alike := by
  intro l l' h
  simp only [Ledger.applyRelease, Action.start_transaction, SimulatedLedger.applyRelease,
    h.failingReleases, h.deferred, h.released]
  by_cases hfails : t ∈ l.failingReleases
  · rw [if_pos hfails, if_pos hfails]
    exact ⟨rfl, h⟩
  · rw [if_neg hfails, if_neg hfails]
    cases l.deferred.contains t with
    | false => exact ⟨rfl, h⟩
    | true =>
      cases l.isReleased t with
      | true => exact ⟨rfl, h⟩
      | false =>
        refine ⟨rfl, rfl, rfl, h.failingUndos, fun u => ?_⟩
        show (l'.released.insert t _).contains u = (l.released.insert t _).contains u
        have hu : l'.released.contains u = l.released.contains u := h.released u
        rw [Bool.eq_iff_iff] at hu ⊢
        rw [Table.contains_insert, Table.contains_insert, hu]

theorem respects_undoRelease (t : Hash) :
    (Ledger.undoRelease t : Action SimulatedLedger LedgerError Unit).Respects Alike := by
  intro l l' h
  simp only [Ledger.undoRelease, Action.start_transaction, SimulatedLedger.undoRelease,
    h.failingUndos, h.released]
  by_cases hfails : t ∈ l.failingUndos
  · rw [if_pos hfails, if_pos hfails]
    exact ⟨rfl, h⟩
  · rw [if_neg hfails, if_neg hfails]
    cases l.isReleased t with
    | false => exact ⟨rfl, h⟩
    | true =>
      refine ⟨rfl, h.deferred, h.failingReleases, rfl, fun u => ?_⟩
      show (l'.released.erase t).contains u = (l.released.erase t).contains u
      have hu : l'.released.contains u = l.released.contains u := h.released u
      rw [Bool.eq_iff_iff] at hu ⊢
      rw [Table.contains_erase, Table.contains_erase, hu]

end SimulatedLedger

/-- The stores are the same, and the ledgers cannot be told apart. -/
structure World.Alike (w w' : World S SimulatedLedger) : Prop where
  /-- The stores are the same. -/
  store : w'.store = w.store
  /-- The ledgers are alike. -/
  ledger : w.ledger.Alike w'.ledger

theorem World.respects_onStore (x : Action S ε α) :
    (World.onStore x : Action (World S SimulatedLedger) ε α).Respects World.Alike := by
  intro w w' h
  unfold World.onStore
  rw [Action.start_onPart, Action.start_onPart, h.store]
  exact ⟨rfl, rfl, h.ledger⟩

theorem World.respects_onLedger {x : Action SimulatedLedger ε α}
    (hx : x.Respects SimulatedLedger.Alike) :
    (World.onLedger x : Action (World S SimulatedLedger) ε α).Respects World.Alike := by
  intro w w' h
  obtain ⟨hanswer, hledger⟩ := hx w.ledger w'.ledger h.ledger
  unfold World.onLedger
  rw [Action.start_onPart, Action.start_onPart]
  exact ⟨hanswer, h.store, hledger⟩

/-! ## The engine cannot tell them apart -/

section

variable {R : S → S → Prop} {step inverse : Hash → Action S LedgerError Unit}

theorem respects_compensate (hinverse : ∀ t, (inverse t).Respects R) (keys : List Hash) :
    (compensate inverse keys).Respects R :=
  .forM (fun key => .bind (hinverse key).outcome fun _ => .pure ()) keys

theorem respects_allOrNone (hstep : ∀ t, (step t).Respects R)
    (hinverse : ∀ t, (inverse t).Respects R) (done todo : List Hash) :
    (allOrNone step inverse done todo).Respects R := by
  induction todo generalizing done with
  | nil => exact .pure ()
  | cons key todo ih =>
    unfold allOrNone
    refine .bind (hstep key).outcome fun r => ?_
    cases r with
    | ok => exact ih _
    | error e => exact .bind (respects_compensate hinverse done) fun _ => .throw _

end

section

variable [PollStore S]

theorem respects_commit {step inverse : Hash → Action SimulatedLedger LedgerError Unit}
    (hstep : ∀ t, (step t).Respects SimulatedLedger.Alike)
    (hinverse : ∀ t, (inverse t).Respects SimulatedLedger.Alike) (keys : List Hash)
    (rs : List Resolution) :
    (commit (fun t => World.onLedger (step t)) (fun t => World.onLedger (inverse t)) keys rs
      : Action (World S SimulatedLedger) EngineError Unit).Respects World.Alike := by
  have hback := respects_compensate (S := World S SimulatedLedger)
    (fun t => World.respects_onLedger (hinverse t))
  unfold commit
  refine .bind (respects_allOrNone (fun t => World.respects_onLedger (hstep t))
    (fun t => World.respects_onLedger (hinverse t)) [] keys) fun _ => ?_
  unfold writeOrElse
  refine .bind (World.respects_onStore _).outcome fun r => ?_
  cases r with
  | ok => exact .pure ()
  | error e => exact .bind (hback _) fun _ => .throw _

theorem respects_undoHeight (height : Height) :
    (undoHeight height : Action (World S SimulatedLedger) EngineError _).Respects World.Alike := by
  rw [undoHeight_eq]
  refine .bind (.bind ((World.respects_onStore _).mapError _) fun _ => .pure _) fun ps => ?_
  split
  · exact .pure _
  · exact .bind (respects_commit SimulatedLedger.respects_undoRelease
      SimulatedLedger.respects_applyRelease _ _) fun _ => .pure _

theorem respects_restore (reverted : List ResolvedPoll) :
    (restore reverted : Action (World S SimulatedLedger) EngineError Unit).Respects World.Alike :=
  respects_commit SimulatedLedger.respects_applyRelease SimulatedLedger.respects_undoRelease _ _

theorem respects_checkRollbackAt (height : Height) :
    (checkRollbackAt height : Action (World S SimulatedLedger) EngineError _).Respects
      World.Alike := by
  unfold checkRollbackAt checkUndecided
  refine .bind ((World.respects_onStore _).mapError _) fun keys =>
    .bind (.forM (fun key => ?_) keys) fun _ => .pure _
  refine .bind ((World.respects_onStore _).mapError _) fun p => ?_
  cases p with
  | none => exact .pure ()
  | some p =>
    dsimp only
    split
    · exact .throw _
    · exact .pure ()

variable [VoteStore S]

omit [PollStore S] in
theorem respects_deleteVotes (ids : List (Hash × AccountId)) :
    (deleteVotes ids : Action (World S SimulatedLedger) EngineError Nat).Respects World.Alike := by
  induction ids with
  | nil => exact .pure 0
  | cons id ids ih =>
    exact .bind ((World.respects_onStore _).mapError _) fun _ => .bind ih fun _ => .pure _

theorem respects_dropContents (height : Height) :
    (dropContents height : Action (World S SimulatedLedger) EngineError Unit).Respects
      World.Alike := by
  have hvotes : (rollbackVotesAt height : Action (World S SimulatedLedger) EngineError Nat).Respects
      World.Alike :=
    .bind ((World.respects_onStore _).mapError _) respects_deleteVotes
  have hpolls : (rollbackRegistrationsAt height :
      Action (World S SimulatedLedger) EngineError Nat).Respects World.Alike :=
    .bind (respects_checkRollbackAt height) fun keys => .bind
      (.forM (fun _ => .bind ((World.respects_onStore _).mapError _) fun _ => .pure ()) keys)
      fun _ => .pure _
  exact .bind hvotes fun _ => .bind hpolls fun _ => .pure ()

/-- **Taking a block back** does not depend on when releases were recorded. -/
theorem respects_popHeight (height : Height) :
    (popHeight height : Action (World S SimulatedLedger) EngineError _).Respects World.Alike := by
  unfold popHeight
  refine .bind (respects_checkRollbackAt height) fun _ => .bind (respects_undoHeight height)
    fun reverted => .bind (respects_dropContents height).outcome fun r => ?_
  cases r with
  | ok => exact .pure _
  | error e => exact .bind (respects_restore reverted).outcome fun _ => .throw _

end

/-! ## What is missing makes no difference -/

namespace MemoryStore.Sheds

variable {height : Height} {s s' : MemoryStore}

/-- The same polls are decided. -/
theorem decidedAt_eq (h : s.Sheds height s') (at' : Height) :
    s'.decidedAt at' = s.decidedAt at' := by
  have hdecided : s'.polls.filter (fun _ p => p.status.isResolved)
      = s.polls.filter fun _ p => p.status.isResolved := by
    refine Table.ext_find? fun key => ?_
    rw [Table.find?_filter, Table.find?_filter]
    rcases h.polls key with hsame | ⟨hgone, hpending⟩
    · rw [hsame]
    · rw [hgone]
      cases hp : s.polls.find? key with
      | none => rfl
      | some p =>
        have hno : ¬p.status.isResolved = true := by
          rw [(hpending p hp).2]
          exact Bool.false_ne_true
        rw [Option.filter_some, if_neg hno]
        rfl
  have hvalues : ∀ t : MemoryStore, (t.pollsWhere (·.finishHeight = at')).filter
      (fun p => p.status.isResolved)
        = (t.polls.filter fun _ p => p.status.isResolved).values.filter (·.finishHeight = at') := by
    intro t
    rw [pollsWhere, Table.values_filter, List.filter_filter, List.filter_filter]
    exact List.filter_congr fun p _ => Bool.and_comm _ _
  unfold decidedAt
  rw [hvalues, hvalues, hdecided]

/-- **What is missing of a block** makes no difference once the block is taken back. -/
theorem takeBack_eq (h : s.Sheds height s') : s'.takeBack height = s.takeBack height := by
  have hpolls : (s'.takeBack height).polls = (s.takeBack height).polls := by
    refine Table.ext_find? fun key => ?_
    simp only [takeBack, dropBlock, undecide, Table.find?_filter, Table.find?_map]
    rcases h.polls key with hsame | ⟨hgone, hcreated⟩
    · rw [hsame]
    · rw [hgone]
      cases hp : s.polls.find? key with
      | none => rfl
      | some p =>
        have hno : ¬decide ((p.undecide height).createdHeight ≠ height) = true := by
          simp [(hcreated p hp).1]
        rw [Option.map_some, Option.filter_some, if_neg hno]
        rfl
  have hvotes : (s'.takeBack height).votes = (s.takeBack height).votes := by
    refine Table.ext_find? fun id => ?_
    simp only [takeBack, dropBlock, undecide, Table.find?_filter]
    rcases h.votes id with hsame | ⟨hgone, hcast⟩
    · rw [hsame]
    · rw [hgone]
      cases hx : s.votes.find? id with
      | none => rfl
      | some x =>
        have hno : ¬decide (x.height ≠ height) = true := fun h =>
          of_decide_eq_true h (hcast x hx)
        rw [Option.filter_some, if_neg hno]
        rfl
  show MemoryStore.mk (s'.takeBack height).polls (s'.takeBack height).votes = _
  rw [hpolls, hvotes]

end MemoryStore.Sheds

/-! ## When taking a block back succeeds -/

namespace World

variable {height : Height} {v v' v'' : World MemoryStore SimulatedLedger}

/-- **Taking a block back succeeds** if its polls are undecided, what was approved at its height is
released, and nothing is made to fail. -/
theorem Poppable.popHeight (hs : v.store.Keyed) (h : v.Poppable height)
    (hno : v.ledger.failingUndos = []) :
    ∃ l, (popHeight height).start v
        = (.ok ((v.store.decidedAt height).map (ResolvedPoll.ofPoll height)),
          ⟨v.store.takeBack height, l⟩) ∧
      SimulatedLedger.Records none v.ledger (approvedKeys (v.store.decidedAt height)) l := by
  have hyields := popHeight_yields (S := MemoryStore) (L := SimulatedLedger) hs (fun h => h) height
  rcases hx : (Finality.popHeight height).start v with ⟨e | reverted, ⟨s, l⟩⟩
  · obtain ⟨-, ⟨-, hcause⟩ | ⟨e', rfl, hundo⟩⟩ := hyields.of_error hx
    · exact (hcause.fallible h.undecided).1.elim
    · obtain ⟨l', hl'⟩ := exists_undoAll_approved hs fun t ht =>
        SimulatedLedger.undoable_of_nil hno (h.released t ht)
      rw [hl'] at hundo
      cases hundo
  · obtain ⟨rfl, rfl, hundo⟩ := hyields.of_ok hx
    exact ⟨l, rfl, SimulatedLedger.records_of_undoAll hundo⟩

theorem Poppable.of_attempted (h : v.Poppable height) (h' : v.Attempted height v') :
    v'.Poppable height where
  undecided hp := h.undecided (h'.store.find?_polls hp)
  released := by
    intro t ht
    rw [h'.released]
    rw [h'.store.decidedAt_eq] at ht
    exact h.released t ht

namespace Attempted

theorem trans (h : v.Attempted height v') (h' : v'.Attempted height v'') :
    v.Attempted height v'' where
  deferred := h'.deferred.trans h.deferred
  released t := (h'.released t).trans (h.released t)
  store := h.store.trans h'.store
  poppable := by
    rcases h.poppable with hsame | hpoppable
    · refine h'.poppable.imp (fun hsame' => hsame'.trans hsame) fun hpoppable => ?_
      refine ⟨hsame ▸ hpoppable.undecided, fun t ht => ?_⟩
      rw [← hsame] at ht
      rw [← h.released]
      exact hpoppable.released t ht
    · exact .inr hpoppable

end Attempted

end World

/-! ## Attempts -/

/-- What is made to fail during an attempt. -/
structure Trouble (φ : Type) where
  /-- Decides which calls of the store fail. -/
  faults : φ
  /-- The transactions whose release fails. -/
  failingReleases : List Hash
  /-- The transactions whose undoing fails. -/
  failingUndos : List Hash

namespace World

/-- The world as long as this is made to fail. -/
def under (x : Trouble φ) (v : World MemoryStore SimulatedLedger) :
    World (Faulty φ MemoryStore) SimulatedLedger :=
  { store := { faults := x.faults, store := v.store }
    ledger := { v.ledger with
      failingReleases := x.failingReleases
      failingUndos := x.failingUndos } }

/-- The world once nothing is made to fail. -/
def mended (v : World MemoryStore SimulatedLedger) : World MemoryStore SimulatedLedger :=
  { v with ledger := { v.ledger with failingReleases := [], failingUndos := [] } }

variable [FaultSource φ]

/-- What an attempt to take back the block at a height leaves. -/
def attempt (height : Height) (v : World MemoryStore SimulatedLedger) (x : Trouble φ) :
    World MemoryStore SimulatedLedger :=
  let w := ((popHeight height).start (v.under x)).2
  ⟨w.store.store, w.ledger⟩

/-- Attempts to take back the block at a height, one after another, all fail, and take back with
success what they have to take back. -/
def AllFail (height : Height) : World MemoryStore SimulatedLedger → List (Trouble φ) → Prop
  | _, [] => True
  | v, x :: xs => ((popHeight height).start (v.under x)).1.toBool = false ∧
    popCompensates height (v.under x) = true ∧ AllFail height (v.attempt height x) xs

instance decidableAllFail (height : Height) : (v : World MemoryStore SimulatedLedger) →
    (xs : List (Trouble φ)) → Decidable (v.AllFail height xs)
  | _, [] => .isTrue trivial
  | v, x :: xs =>
    have := decidableAllFail height (v.attempt height x) xs
    inferInstanceAs (Decidable (_ ∧ _ ∧ _))

variable {height : Height} {v v' : World MemoryStore SimulatedLedger}

/-- One attempt that fails. -/
theorem attempted_attempt (hs : v.store.Keyed) {x : Trouble φ}
    (hfails : ((popHeight height).start (v.under x)).1.toBool = false)
    (hclean : popCompensates height (v.under x) = true) :
    v.Attempted height (v.attempt height x) := by
  rcases hx : (popHeight height).start (v.under x) with ⟨e | reverted, w⟩
  · have hview : (v.under x).view.store.Keyed := hs
    have h := (popHeight_attempted hview hclean hx).1
    unfold attempt
    rw [hx]
    exact ⟨h.deferred, h.released, h.store, h.poppable.imp_right fun h => ⟨h.undecided, h.released⟩⟩
  · rw [hx] at hfails
    cases hfails

/-- **Any number of attempts** that fail. -/
theorem attempted_foldl (hs : v.store.Keyed) {xs : List (Trouble φ)} (h : v.AllFail height xs) :
    v.Attempted height (xs.foldl (attempt height) v) := by
  induction xs generalizing v with
  | nil => exact .refl height v
  | cons x xs ih =>
    obtain ⟨hfails, hclean, hrest⟩ := h
    have hfirst := attempted_attempt hs hfails hclean
    exact hfirst.trans (ih (hfirst.store.keyed hs) hrest)

omit [FaultSource φ] in
/-- After attempts that failed, an attempt that meets no failure does what it would have done
before. -/
theorem Attempted.popHeight_mended (hs : v.store.Keyed) (h : v.Attempted height v') :
    let once := (popHeight height).start v.mended
    let last := (popHeight height).start v'.mended
    last.1 = once.1 ∧ last.2.store = once.2.store ∧
      ∀ t, last.2.ledger.isReleased t = once.2.ledger.isReleased t := by
  rcases h.poppable with hsame | hpoppable
  · -- Nothing is missing, and the ledgers cannot be told apart.
    have halike : v.mended.Alike v'.mended := ⟨hsame, h.deferred, rfl, rfl, h.released⟩
    obtain ⟨hanswer, hstate⟩ := respects_popHeight height v.mended v'.mended halike
    exact ⟨hanswer.symm, hstate.store, hstate.ledger.released⟩
  · -- Something is missing, but then nothing can go wrong any more.
    have hbefore : v.mended.Poppable height := ⟨hpoppable.undecided, hpoppable.released⟩
    have hpoppable' := hpoppable.of_attempted h
    have hafter : v'.mended.Poppable height := ⟨hpoppable'.undecided, hpoppable'.released⟩
    obtain ⟨l, hl, hrecords⟩ := Poppable.popHeight (v := v.mended) hs hbefore rfl
    obtain ⟨l', hl', hrecords'⟩ := Poppable.popHeight (v := v'.mended) (h.store.keyed hs) hafter rfl
    have hdecided : v'.mended.store.decidedAt height = v.mended.store.decidedAt height :=
      h.store.decidedAt_eq height
    intro once last
    have honce : once = _ := hl
    have hlast : last = _ := hl'
    rw [honce, hlast, hdecided]
    refine ⟨rfl, h.store.takeBack_eq, fun t => ?_⟩
    have hreleased : v'.ledger.isReleased t = v.ledger.isReleased t := h.released t
    rw [hdecided] at hrecords'
    unfold SimulatedLedger.isReleased Table.contains at hreleased ⊢
    rw [hrecords.after, hrecords'.after]
    split
    · rfl
    · exact hreleased

end World

/-- **Taking a block back can be tried again.**  Over any contents and a ledger in any state:
however many attempts to take back the block at a height have failed, at whatever calls of the store
or the ledger, as long as each took back with success what it had to take back, an attempt that
meets no failure then gives the answer, leaves the polls and votes, and leaves the transactions
released, that one attempt without failures would have given and left in the first place. -/
theorem retried_pop_is_one_pop [FaultSource φ] (v : World MemoryStore SimulatedLedger)
    (hs : v.store.Keyed) (height : Height) (xs : List (Trouble φ)) (hfail : v.AllFail height xs) :
    let once := (popHeight height).start v.mended
    let last := (popHeight height).start (xs.foldl (World.attempt height) v).mended
    last.1 = once.1 ∧ last.2.store = once.2.store ∧
      ∀ t, last.2.ledger.isReleased t = once.2.ledger.isReleased t :=
  (World.attempted_foldl hs hfail).popHeight_mended hs

/-- Taking back fails at the second vote, then at the ledger, then at the scan for polls, and then
succeeds. -/
theorem retried_pop_is_one_pop_thrice :
    let v : World MemoryStore SimulatedLedger := ⟨.voted, .voted⟩
    let xs : List (Trouble FaultPlan) := [⟨[(.deleteVote, ⟨1, 1, .backend "disk"⟩)], [], []⟩,
      ⟨[], [], [.ones]⟩, ⟨[(.pollsCreatedAt, ⟨1, 1, .backend "disk"⟩)], [], []⟩]
    let v' := xs.foldl (World.attempt 2) v
    let once := (popHeight 2).start v.mended
    let last := (popHeight 2).start v'.mended
    v.store.Keyed ∧ v.AllFail 2 xs ∧ v'.store.votes.size = 0 ∧
    last.1.toBool = true ∧ last.2.ledger.isReleased .ones = false ∧
    last.1 = once.1 ∧ last.2.store = once.2.store ∧
      ∀ t, last.2.ledger.isReleased t = once.2.ledger.isReleased t := by
  exact ⟨MemoryStore.keyed_voted, by decide +kernel, by decide +kernel, by decide +kernel,
    by decide +kernel, retried_pop_is_one_pop _ MemoryStore.keyed_voted 2 _ (by decide +kernel)⟩

end Finality
