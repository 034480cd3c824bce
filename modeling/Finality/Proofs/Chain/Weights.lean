import Finality.Proofs.Chain.Audit
import Finality.Proofs.Engine.Release
import Finality.Proofs.Ledger.Balance

/-!
# Weights can be asked for again

What a vote counts is read off the ledger while the block with the vote is still being assembled.
The transactions released when that block is applied count for the balances at its height, but came
after the vote.  Without them, the ledger answers for every stored vote the weight that was
captured, at whatever moment it is asked, and whatever blocks have come and gone since.

* `World.Dated` — a transaction is released exactly if its poll is approved, and in the block in
  which the poll finishes.
* `Session.InTurn` — the tip of the ledger is where it should be, and blocks are taken back only
  between blocks.
* `Session.Weighed` — the invariant: every stored vote has the weight that the ledger answers, as
  it was when the block with the vote began; `Session.Weighed.step` — every step keeps it.
* `captured_weights_reproducible` — the result for all runs.  `captured_weight_changes` shows that
  the releases of the vote's own block cannot be left in.
-/

namespace Finality

/-! ## Releases by height -/

/-- Exactly the transactions whose polls are approved are released, each in the block in which its
poll finishes. -/
structure World.Dated (v : World MemoryStore SimulatedLedger) : Prop extends v.InStep where
  /-- Releases are recorded where polls finish. -/
  finish : ∀ {t r p}, v.ledger.released.find? t = some r → v.store.polls.find? t = some p →
    p.finishHeight = r

namespace World.Dated

variable {v v' : World MemoryStore SimulatedLedger}

/-- What is released has an approved poll. -/
theorem exists_poll (h : v.Dated) {t : Hash} {r : Height}
    (ht : v.ledger.released.find? t = some r) :
    ∃ p, v.store.polls.find? t = some p ∧ p.status = .approved ∧ p.finishHeight = r := by
  have hreleased : v.ledger.isReleased t = true := Table.contains_iff.2 ⟨r, ht⟩
  obtain ⟨p, hp, happroved⟩ := (h.released t).1 hreleased
  exact ⟨p, hp, happroved, h.finish ht hp⟩

/-- A poll was registered. -/
theorem insertPoll (h : v.Dated) {p : Poll} (hnew : v.store.polls.find? p.key = none)
    (hpending : p.status = .pending) :
    World.Dated ⟨{ v.store with polls := v.store.polls.insert p.key p }, v.ledger⟩ where
  toInStep := h.toInStep.insertPoll hnew hpending rfl rfl
  finish := by
    intro t r q ht hq
    obtain ⟨p', hp', -, hfinish⟩ := h.exists_poll ht
    have hkey : t ≠ p.key := by
      rintro rfl
      rw [hnew] at hp'
      cases hp'
    rw [Table.find?_insert, if_neg hkey, hp'] at hq
    cases hq
    exact hfinish

/-- Polls were decided, and those approved released. -/
theorem settle (h : v.Dated) {height : Height} {outcomes : Outcomes}
    (hdecide : outcomes.Decide height v.store) (hstore : v'.store = v.store.settle outcomes)
    (hrecords : SimulatedLedger.Records (some height) v.ledger outcomes.approved v'.ledger) :
    v'.Dated where
  toInStep := h.toInStep.settle hdecide hstore
    (hrecords.reverse.setsAll fun hnone => (by cases hnone))
  finish := by
    intro t r p ht hp
    rw [hrecords.after] at ht
    rw [hstore] at hp
    obtain ⟨q, hq, hterms⟩ := MemoryStore.terms_of_settle hp
    rw [Poll.finishHeight_of_terms hterms]
    split at ht
    · rename_i hmem
      cases ht
      obtain ⟨o, ho, -⟩ := Outcomes.mem_approved.1 hmem
      obtain ⟨q', hq', hheight⟩ := hdecide.keys.1 (Table.contains_iff.2 ⟨o, ho⟩)
      rw [hq] at hq'
      cases hq'
      exact hheight
    · exact h.finish ht hq

/-- A block was taken back, and what it had released undone. -/
theorem takeBack (h : v.Dated) {height : Height} (hpending : v.store.UndecidedSince height)
    (hstore : v'.store = v.store.takeBack height)
    (hrecords : SimulatedLedger.Records none v.ledger (approvedKeys (v.store.decidedAt height))
      v'.ledger) : v'.Dated where
  toInStep := by
    have hsets := hrecords.reverse.setsAll fun _ t ht =>
      h.toInStep.isReleased_approved t (List.mem_reverse.1 ht)
    have hundone : World.InStep ⟨v.store.undecide height, v'.ledger⟩ :=
      h.toInStep.undecide rfl hsets
    have hsheds : (v.store.undecide height).Sheds height v'.store := by
      rw [hstore]
      exact MemoryStore.sheds_dropBlock (h.keyed.undecide height) (hpending.undecide height)
    exact hundone.of_sheds hsheds rfl
  finish := by
    intro t r p ht hp
    rw [hrecords.after] at ht
    rw [hstore] at hp
    obtain ⟨q, hq, -, rfl⟩ := MemoryStore.find?_polls_takeBack.1 hp
    rw [Poll.finishHeight_of_terms (q.terms_undecide height)]
    split at ht
    · cases ht
    · exact h.finish ht hq

end World.Dated

/-- A call that fails leaves everything alone, if no undoing is made to fail. -/
theorem Call.Effect.eq_of_error {params : Params} {height : Height} {c : Call} {e : EngineError}
    {v v' : World MemoryStore SimulatedLedger} (hdated : v.Dated)
    (hno : v.ledger.failingUndos = []) (h : c.Effect params height v (.error e) v') : v' = v := by
  cases h with
  | @failed c e l hcause hledger =>
    suffices hsame : l = v.ledger by rw [hsame]
    cases c with
    | register r => exact SimulatedLedger.eq_of_askedFrom hledger
    | castVote poll voter => exact SimulatedLedger.eq_of_askedFrom hledger
    | applyBlock h =>
      rcases hledger with hsame | ⟨keys, hfails⟩
      · exact hsame
      · refine SimulatedLedger.eq_of_releaseAll_error (fun t _ => ?_) hfails
        rw [hno]
        exact List.not_mem_nil
    | popBlock h =>
      rcases hledger with hsame | hfails
      · exact hsame
      · -- What was approved is released, so that undoing it cannot fail.
        obtain ⟨l', hl'⟩ := exists_undoAll_approved hdated.keyed fun t ht =>
          SimulatedLedger.undoable_of_nil hno (hdated.toInStep.isReleased_approved t ht)
        rw [hl'] at hfails
        cases hfails

/-! ## Calls in turn -/

/-- The call comes in its turn: what makes up the next block when the tip of the ledger is there,
and the taking back of a block between blocks. -/
def Call.InTurn (log : List Exchange) (height : Height) (l : SimulatedLedger) : Call → Prop
  | .register _ | .castVote .. | .applyBlock _ => height + 1 ≠ 0 ∧ l.tip = some (height + 1)
  | .popBlock _ => Session.midBlock log = false

instance Call.decidableInTurn (log : List Exchange) (height : Height) (l : SimulatedLedger) :
    (c : Call) → Decidable (c.InTurn log height l)
  | .register _ | .castVote .. | .applyBlock _ => inferInstanceAs (Decidable (_ ∧ _))
  | .popBlock _ => inferInstanceAs (Decidable (_ = _))

namespace Session

/-- Calls that are not refused come in their turn.  The tip of the ledger is moved to the next
block, or, between blocks, to the last one, and nothing else of the ledger is changed. -/
def InTurn (s : Session (World MemoryStore SimulatedLedger)) : Step SimulatedLedger → Prop
  | .call c => c.refusal s.follower = none →
    c.InTurn s.log s.follower.height s.follower.world.ledger
  | .ledger change => ∃ tip, change = SimulatedLedger.setTip tip ∧
    (tip = s.follower.height + 1 ∧ tip ≠ 0 ∨ tip = s.follower.height ∧ midBlock s.log = false)

/-! ## The invariant -/

/-- Every stored vote has the weight that the ledger answers, as it was before the block with the
vote. -/
structure Weighed (log : List Exchange) (height : Height) (v : World MemoryStore SimulatedLedger) :
    Prop where
  /-- The run is orderly. -/
  orderly : Orderly log height v.store
  /-- Releases are those of approved polls. -/
  dated : v.Dated
  /-- No undoing is made to fail. -/
  failingUndos : v.ledger.failingUndos = []
  /-- Votes are not above the tip. -/
  final : ∀ {id x tip}, v.store.votes.find? id = some x → v.ledger.tip = some tip → x.height ≤ tip
  /-- Weights are what the ledger answers. -/
  weight : ∀ {id x p}, v.store.votes.find? id = some x → v.store.polls.find? x.poll = some p →
    ((p.weightOf x.voter x.height).start (v.ledger.before x.height)).1 = .ok (.eligible x.weight)

namespace Weighed

variable {log : List Exchange} {height : Height} {v v' : World MemoryStore SimulatedLedger}

theorem empty (height : Height) {l : SimulatedLedger} (hnothing : l.released = ∅)
    (hno : l.failingUndos = []) : Weighed [] height ⟨.empty, l⟩ where
  orderly := .empty height
  dated :=
    { keyed := MemoryStore.keyed_empty
      released := fun t => by
        rw [SimulatedLedger.isReleased, hnothing]
        constructor
        · intro h
          cases h
        · rintro ⟨p, hp, -⟩
          cases hp
      finish := fun _ hp => by cases hp }
  failingUndos := hno
  final hx := by cases hx
  weight hx := by cases hx

/-- Nothing was released above the last block. -/
theorem record_le (hs : Weighed log height v) {t : Hash} {r : Height}
    (ht : v.ledger.released.find? t = some r) : r ≤ height := by
  obtain ⟨p, hp, happroved, hfinish⟩ := hs.dated.exists_poll ht
  rw [← hfinish]
  refine hs.orderly.finish_le hp ?_
  rw [happroved]
  exact PollStatus.noConfusion

/-- The polls created in the last block are undecided, between blocks. -/
theorem undecidedSince (hs : Weighed log height v) (hne : height ≠ 0) :
    v.store.UndecidedSince height := by
  intro key p hp hcreated
  have honTime := hs.orderly.kept.onTime.polls hp
  refine (honTime.status ?_).2 ?_
  · rw [hcreated]
    exact hne
  · rw [← hcreated]
    exact honTime.finish

/-- A vote is not in a block above the last one, between blocks. -/
theorem height_le (hs : Weighed log height v) (hbetween : midBlock log = false) {id : VoteKey}
    {x : Vote} (hx : v.store.votes.find? id = some x) : x.height ≤ height := by
  have hupTo := hs.orderly.kept.upTo.votes hx
  rw [youngest, hbetween] at hupTo
  exact UInt64.le_iff_toNat_le.2 hupTo

/-- The tip has moved. -/
theorem setTip (hs : Weighed log height v) {tip : Height}
    (htip : tip = height + 1 ∧ tip ≠ 0 ∨ tip = height ∧ midBlock log = false) :
    Weighed log height ⟨v.store, v.ledger.setTip tip⟩ where
  orderly := hs.orderly
  dated :=
    { keyed := hs.dated.keyed
      released := hs.dated.released
      finish := hs.dated.finish }
  failingUndos := hs.failingUndos
  final := by
    intro id x tip' hx htip'
    cases htip'
    rcases htip with ⟨rfl, hne⟩ | ⟨rfl, hbetween⟩
    · rw [UInt64.le_iff_toNat_le, Height.toNat_add_one hne]
      exact Nat.le_trans (hs.orderly.kept.upTo.votes hx) (youngest_le log height)
    · exact hs.height_le hbetween hx
  weight := hs.weight

/-- After a call that was refused or has failed. -/
theorem error (hs : Weighed log height v) (c : Call) (e : NodeError) :
    Weighed (⟨c, .error e⟩ :: log) height v where
  orderly := hs.orderly.error c e
  dated := hs.dated
  failingUndos := hs.failingUndos
  final := hs.final
  weight := hs.weight

/-- A vote that is being cast has the weight that the ledger answers before the block. -/
theorem weight_of_cast (hs : Weighed log height v) (hne : height + 1 ≠ 0)
    (htip : v.ledger.tip = some (height + 1)) {x : Vote} (hheight : x.height = height + 1)
    {p : Poll} {l : SimulatedLedger}
    (hanswer : (p.weightOf x.voter x.height).start v.ledger = (.ok (.eligible x.weight), l)) :
    ((p.weightOf x.voter x.height).start (v.ledger.before x.height)).1
      = .ok (.eligible x.weight) := by
  have hbalance : ∀ holding, (v.ledger.before x.height).balanceOf x.voter holding x.height
      = v.ledger.balanceOf x.voter holding x.height := by
    intro holding
    refine SimulatedLedger.balanceOf_before ?_ fun t r ht => ?_
    · intro tip htip'
      rw [htip] at htip'
      cases htip'
      rw [hheight]
      exact UInt64.le_refl _
    · rw [hheight]
      exact UInt64.ne_of_lt ((Height.lt_add_one_iff hne).2 (UInt64.not_lt.2 (hs.record_le ht)))
  rw [weightOf_congr hbalance, hanswer]

/-- A new poll has no votes. -/
theorem weight_insertPoll (hs : Weighed log height v) {y : Poll}
    (hnew : v.store.polls.find? y.key = none) {id : VoteKey} {x : Vote} {p : Poll}
    (hx : v.store.votes.find? id = some x)
    (hp : (v.store.polls.insert y.key y).find? x.poll = some p) :
    ((p.weightOf x.voter x.height).start (v.ledger.before x.height)).1
      = .ok (.eligible x.weight) := by
  obtain ⟨q, hq, -⟩ := hs.orderly.kept.fits id x hx
  have hother : x.poll ≠ y.key := by
    intro hpoll
    rw [hpoll, hnew] at hq
    cases hq
  rw [Table.find?_insert, if_neg hother] at hp
  exact hs.weight hx hp

/-- Decided polls weigh votes as before, and what is released then is not counted. -/
theorem weight_settle (hs : Weighed log height v) {tip : Height} (htip : v.ledger.tip = some tip)
    {outcomes : Outcomes} {l : SimulatedLedger}
    (hrecords : SimulatedLedger.Records (some tip) v.ledger outcomes.approved l) {id : VoteKey}
    {x : Vote} {p : Poll} (hx : v.store.votes.find? id = some x)
    (hp : (v.store.settle outcomes).polls.find? x.poll = some p) :
    ((p.weightOf x.voter x.height).start (l.before x.height)).1 = .ok (.eligible x.weight) := by
  obtain ⟨q, hq, hterms⟩ := MemoryStore.terms_of_settle hp
  rw [Poll.weightOf_of_criteria (Poll.criteria_of_terms hterms),
    hrecords.before_eq (hs.final hx htip)]
  exact hs.weight hx hq

/-- So do polls that are undecided again, and what is undone then was not counted. -/
theorem weight_takeBack (hs : Weighed log height v) (hbetween : midBlock log = false)
    {l : SimulatedLedger}
    (hrecords : SimulatedLedger.Records none v.ledger (approvedKeys (v.store.decidedAt height)) l)
    {id : VoteKey} {x : Vote} {p : Poll} (hx : v.store.votes.find? id = some x)
    (hp : (v.store.takeBack height).polls.find? x.poll = some p) :
    ((p.weightOf x.voter x.height).start (l.before x.height)).1 = .ok (.eligible x.weight) := by
  obtain ⟨q, hq, -, rfl⟩ := MemoryStore.find?_polls_takeBack.1 hp
  -- The releases undone are those of the block, and the vote is not above it.
  have habove : ∀ t ∈ approvedKeys (v.store.decidedAt height), ∀ r,
      v.ledger.released.find? t = some r → x.height ≤ r := by
    intro t ht r hr
    obtain ⟨p, hp, hfinish, -⟩ := (MemoryStore.mem_approvedKeys_decidedAt hs.dated.keyed).1 ht
    rw [← hs.dated.finish hr hp, hfinish]
    exact hs.height_le hbetween hx
  rw [Poll.weightOf_of_criteria (Poll.criteria_of_terms (q.terms_undecide _)),
    hrecords.before_eq_undone habove]
  exact hs.weight hx hq

/-- What a call that succeeds makes of the invariant. -/
theorem done {f : Follower (World MemoryStore SimulatedLedger)} {c : Call} {reply : Reply}
    (hrefusal : c.refusal f = none) (hs : Weighed log f.height v)
    (hturn : c.InTurn log f.height v.ledger)
    (h : c.Effect f.params f.height v (.ok reply) v') :
    Weighed (⟨c, .ok reply⟩ :: log) (c.heightAfter f.height) v' := by
  have horderly := hs.orderly.done hrefusal (fun h hc => by rw [hc] at hturn; exact hturn) h
  cases h with
  | @registered r l hpasses hledger =>
    cases SimulatedLedger.eq_of_askedFrom hledger
    exact ⟨horderly, hs.dated.insertPoll (p := r.toPoll (f.height + 1)) hpasses.new rfl,
      hs.failingUndos, hs.final, hs.weight_insertPoll (y := r.toPoll (f.height + 1)) hpasses.new⟩
  | @accepted y l hheight hadmitted hledger hweighs =>
    cases SimulatedLedger.eq_of_askedFrom hledger
    obtain ⟨q, hq, hanswer⟩ := hweighs
    obtain ⟨hne, htip⟩ := hturn
    refine ⟨horderly, ⟨hs.dated.toInStep.insertVote rfl rfl, hs.dated.finish⟩, hs.failingUndos,
      ?_, ?_⟩
    · intro id x tip' hx htip'
      rw [Table.find?_insert] at hx
      split at hx
      · cases hx
        rw [htip] at htip'
        cases htip'
        rw [hheight]
        exact UInt64.le_refl _
      · exact hs.final hx htip'
    · intro id x p hx hp
      rw [Table.find?_insert] at hx
      split at hx
      · cases hx
        rw [hq] at hp
        cases hp
        exact hs.weight_of_cast hne htip hheight hanswer
      · exact hs.weight hx hp
  | rejected hledger =>
    cases SimulatedLedger.eq_of_askedFrom hledger
    exact ⟨horderly, hs.dated, hs.failingUndos, hs.final, hs.weight⟩
  | @applied h outcomes l hdecide hledger =>
    obtain ⟨rfl, -⟩ := Call.eq_of_refusal_applyBlock hrefusal
    obtain ⟨-, htip⟩ := hturn
    have hrecords := SimulatedLedger.records_of_releaseAll hledger
    rw [htip] at hrecords
    have hframe := hrecords.frame
    refine ⟨horderly, hs.dated.settle hdecide rfl hrecords, ?_, ?_, hs.weight_settle htip hrecords⟩
    · rw [hframe]
      exact hs.failingUndos
    · rw [hframe]
      exact hs.final
  | @popped h l hledger =>
    obtain ⟨rfl, hne⟩ := Call.eq_of_refusal_popBlock hrefusal
    have hrecords := SimulatedLedger.records_of_undoAll hledger
    have hframe := hrecords.frame
    refine ⟨horderly, hs.dated.takeBack (hs.undecidedSince hne) rfl hrecords, ?_, ?_, ?_⟩
    · rw [hframe]
      exact hs.failingUndos
    · intro id x tip hx htip
      rw [hframe] at htip
      exact hs.final (MemoryStore.find?_votes_takeBack.1 hx).1 htip
    · intro id x p hx hp
      exact hs.weight_takeBack hturn hrecords (MemoryStore.find?_votes_takeBack.1 hx).1 hp

/-- **Every step keeps the invariant**, if it comes in its turn. -/
theorem step {s : Session (World MemoryStore SimulatedLedger)}
    (hs : Weighed s.log s.follower.height s.follower.world) {st : Step SimulatedLedger}
    (hturn : s.InTurn st) :
    Weighed (s.step st).log (s.step st).follower.height (s.step st).follower.world := by
  cases st with
  | ledger change =>
    obtain ⟨tip, rfl, htip⟩ := hturn
    exact hs.setTip htip
  | call c =>
    have hends := c.ends (f := s.follower) hs.orderly.kept.onTime.keyed fun h => h
    show Weighed (⟨c, (c.action.start s.follower).1⟩ :: s.log) (c.action.start s.follower).2.height
      (c.action.start s.follower).2.world
    rcases hx : c.action.start s.follower with ⟨r, f'⟩
    rw [hx] at hends
    cases hends with
    | refused hrefusal => exact hs.error c _
    | done hrefusal heffect hparams hheight hhalt =>
      rw [hheight]
      exact hs.done hrefusal (hturn hrefusal) heffect
    | failed hrefusal heffect hparams hheight hhalt =>
      have hsame : f'.world = s.follower.world := heffect.eq_of_error hs.dated hs.failingUndos
      rw [hheight, hsame]
      exact hs.error c _

/-- What the ledger answers for a stored vote, without the releases of its own block. -/
theorem weight_without (hs : Weighed log height v) {id : VoteKey} {x : Vote} {p : Poll}
    (hx : v.store.votes.find? id = some x) (hp : v.store.polls.find? x.poll = some p) :
    ((p.weightOf x.voter x.height).start (v.ledger.without x.height)).1
      = .ok (.eligible x.weight) := by
  have hnone : ∀ t r, (v.ledger.without x.height).released.find? t = some r → r ≠ x.height :=
    fun t r ht => of_decide_eq_true (SimulatedLedger.find?_keeping.1 ht).2
  have hfinal : ∀ tip, (v.ledger.without x.height).tip = some tip → x.height ≤ tip :=
    fun tip htip => hs.final hx htip
  have hbalance : ∀ holding,
      ((v.ledger.without x.height).before x.height).balanceOf x.voter holding x.height
        = (v.ledger.without x.height).balanceOf x.voter holding x.height :=
    fun _ => SimulatedLedger.balanceOf_before hfinal hnone
  have hanswer := weightOf_congr hbalance p
  rw [SimulatedLedger.before_without] at hanswer
  rw [← hanswer]
  exact hs.weight hx hp

end Weighed

end Session

/-! ## Runs -/

/-- **Captured weights are reproducible.**  In every run that starts from an empty store and a
ledger with nothing released, over a store that does not fail and a ledger in which no undoing is
made to fail, in which the tip of the ledger is moved along with the blocks and blocks are taken
back only between blocks: asked again at any moment what a stored vote counts on its poll at its
height, the ledger answers the weight that was captured, but for the releases made when the block
with the vote was applied; and it answers that weight outright if none of these pays the voter or
is paid by the voter. -/
theorem captured_weights_reproducible (f : Follower (World MemoryStore SimulatedLedger))
    (hempty : f.world.store = .empty) (hnothing : f.world.ledger.released = ∅)
    (hno : f.world.ledger.failingUndos = [])
    (steps : List (Step SimulatedLedger))
    (hsteps : Session.Permits Session.InTurn (.start f) steps) :
    let world := ((Session.start f).run steps).follower.world
    ∀ x ∈ world.store.votes.values, ∃ p, world.store.polls.find? x.poll = some p ∧
      ((p.weightOf x.voter x.height).start (world.ledger.without x.height)).1
        = .ok (.eligible x.weight) ∧
      ((∀ t tr, world.ledger.released.find? t = some x.height →
          world.ledger.deferred.find? t = some tr → tr.source ≠ x.voter ∧ tr.target ≠ x.voter) →
        ((p.weightOf x.voter x.height).start world.ledger).1 = .ok (.eligible x.weight)) := by
  intro world x hx
  have hstart : Session.Weighed [] f.height f.world := by
    have hworld : f.world = ⟨.empty, f.world.ledger⟩ := by rw [← hempty]
    rw [hworld]
    exact .empty f.height hnothing hno
  have hs : Session.Weighed ((Session.start f).run steps).log
      ((Session.start f).run steps).follower.height world :=
    Session.run_induction
      (P := fun s => Session.Weighed s.log s.follower.height s.follower.world)
      (fun _ _ hs hst => hs.step hst) hstart hsteps
  obtain ⟨id, hid⟩ := Table.mem_values_iff.1 hx
  obtain ⟨p, hp, -⟩ := hs.orderly.kept.fits id x hid
  have hanswer := hs.weight_without hid hp
  refine ⟨p, hp, hanswer, fun huninvolved => ?_⟩
  have hbalance : ∀ holding,
      (world.ledger.without x.height).balanceOf x.voter holding x.height
        = world.ledger.balanceOf x.voter holding x.height := by
    intro holding
    refine SimulatedLedger.balanceOf_keeping fun t r ht _ hnot tr htr => ?_
    have hr : r = x.height := by simpa using hnot
    rw [hr] at ht
    obtain ⟨hsource, htarget⟩ := huninvolved t tr ht htr
    simp [Transfer.effectOn, hsource, htarget]
  rw [← weightOf_congr hbalance]
  exact hanswer

/-! ## A run in which a voter pays -/

/-- An account has a hundred of an asset, of which a transaction is to take ninety away. -/
def SimulatedLedger.paying (transaction : Hash) : SimulatedLedger :=
  ((SimulatedLedger.empty.addHolding .asset ⟨1⟩).setBalance ⟨7⟩ ⟨.asset, some ⟨1⟩⟩ 0 100).defer
    transaction ⟨⟨7⟩, ⟨8⟩, ⟨.asset, some ⟨1⟩⟩, 90⟩

/-- A poll that is weighed by this asset. -/
def PollRequest.weighing (transaction : Hash) (finishHeight : Height) : PollRequest :=
  { PollRequest.single transaction finishHeight with
    model := .assetWeighted, holding := some ⟨1⟩ }

namespace Session

/-- The account votes in block two, in which the transaction is released. -/
def paying : List (Step SimulatedLedger) :=
  [.ledger (SimulatedLedger.setTip 1), .call (.register (.weighing .ones 5)),
    .call (.register (.single .zero 2)), .call (.castVote .zero ⟨9⟩), .call (.applyBlock 1),
    .ledger (SimulatedLedger.setTip 2), .call (.castVote .ones ⟨7⟩), .call (.applyBlock 2)]

theorem permits_paying :
    Permits InTurn (.start (.start ⟨.empty, .paying .zero⟩ .standard 0)) paying := by
  refine ⟨⟨1, rfl, .inl ?_⟩, fun _ => ?_, fun _ => ?_, fun _ => ?_, fun _ => ?_,
    ⟨2, rfl, .inl ?_⟩, fun _ => ?_, fun _ => ?_, trivial⟩
  all_goals decide +kernel

end Session

/-- Without what was released in its block, the vote has the weight that was captured. -/
theorem captured_weights_reproducible_paying :
    let f : Follower (World MemoryStore SimulatedLedger) :=
      .start ⟨.empty, .paying .zero⟩ .standard 0
    let world := ((Session.start f).run Session.paying).follower.world
    f.world.store = .empty ∧ f.world.ledger.released = ∅ ∧ f.world.ledger.failingUndos = [] ∧
    Session.Permits Session.InTurn (.start f) Session.paying ∧
    world.ledger.released.find? .zero = some 2 ∧
    world.store.votes.values = [⟨.zero, ⟨9⟩, 1, 1⟩, ⟨.ones, ⟨7⟩, 100, 2⟩] ∧
    ∀ x ∈ world.store.votes.values, ∃ p, world.store.polls.find? x.poll = some p ∧
      ((p.weightOf x.voter x.height).start (world.ledger.without x.height)).1
        = .ok (.eligible x.weight) ∧
      ((∀ t tr, world.ledger.released.find? t = some x.height →
          world.ledger.deferred.find? t = some tr → tr.source ≠ x.voter ∧ tr.target ≠ x.voter) →
        ((p.weightOf x.voter x.height).start world.ledger).1 = .ok (.eligible x.weight)) := by
  exact ⟨rfl, rfl, rfl, Session.permits_paying, by decide +kernel, by decide +kernel,
    captured_weights_reproducible _ rfl rfl rfl Session.paying Session.permits_paying⟩

/-- **A weight that cannot be asked for again**: a hundred were captured, and ten are left when the
block with the vote has been applied. -/
theorem captured_weight_changes :
    let f : Follower (World MemoryStore SimulatedLedger) :=
      .start ⟨.empty, .paying .zero⟩ .standard 0
    let world := ((Session.start f).run Session.paying).follower.world
    let p := (PollRequest.weighing .ones 5).toPoll 1
    let x : Vote := ⟨.ones, ⟨7⟩, 100, 2⟩
    Session.Permits Session.InTurn (.start f) Session.paying ∧
    world.store.polls.find? x.poll = some p ∧ world.store.votes.find? x.id = some x ∧
    ((p.weightOf x.voter x.height).start world.ledger).1 = .ok (.eligible 10) := by
  exact ⟨Session.permits_paying, by decide +kernel, by decide +kernel, by rfl⟩

end Finality
