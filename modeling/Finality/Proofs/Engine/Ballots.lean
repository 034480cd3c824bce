import Finality.Proofs.Engine.Admission
import Finality.Proofs.Ledger.Balance
import Mathlib.Data.List.Nodup

/-!
# The votes of a block

The votes that a block contains are cast one after another.  In what order makes no difference, for
the answer to a vote looks at the poll, at the balances of the voter, and at the one place where the
vote itself would be stored; no other vote is stored there.

* `castAll` — casts votes one after another, whatever becomes of each.
* `answerTo_record`, `record_comm` — a vote makes no difference to the answer to another one, and
  two votes are stored in either order.
* `castAll_answers` — the answers are those that each vote would have had alone, and the store is
  that with all their votes (`recordAll`).
* `votes_of_one_block_commute` — the result.
-/

namespace Finality

variable {S L σ : Type}

/-- Casts these votes in the block at a height, one after another, and answers what became of
each. -/
def castAll [PollStore σ] [VoteStore σ] [Ledger σ] (height : Height) :
    List VoteKey → Action σ EngineError (List (VoteKey × Except EngineError VoteOutcome))
  | [] => return []
  | id :: ids => do
    let answer ← (castVote id.poll id.voter height).outcome
    let answers ← castAll height ids
    return (id, answer) :: answers

/-! ## One vote beside another -/

namespace MemoryStore

variable {height : Height} {s : MemoryStore} {id id' : VoteKey}

/-- No vote changes a poll. -/
@[simp] theorem polls_record (answer : Except EngineError VoteOutcome) :
    (s.record height id answer).polls = s.polls := by
  unfold record
  split <;> rfl

/-- A vote is stored under its own key. -/
theorem find?_record_of_ne (hne : id ≠ id') (answer : Except EngineError VoteOutcome) :
    (s.record height id' answer).votes.find? id = s.votes.find? id := by
  unfold record
  split
  · rw [Table.find?_insert, if_neg hne]
  · rfl

/-- The answer to a vote is the same, whether or not another one was cast before. -/
theorem answerTo_record (hne : id ≠ id') (answer : Except EngineError VoteOutcome)
    (weigh : Poll → AccountId → Except LedgerError Eligibility) :
    (s.record height id' answer).answerTo weigh height id = s.answerTo weigh height id := by
  unfold answerTo Table.contains
  rw [polls_record, find?_record_of_ne hne]

/-- Two votes are stored in either order. -/
theorem record_comm (hne : id ≠ id') (answer answer' : Except EngineError VoteOutcome) :
    (s.record height id answer).record height id' answer'
      = (s.record height id' answer').record height id answer := by
  rcases answer with e | (weight | reason)
  · rfl
  · rcases answer' with e | (weight' | reason)
    · rfl
    · exact congrArg (MemoryStore.mk s.polls) (s.votes.insert_comm hne _ _)
    · rfl
  · rfl

/-- The store after votes in a block have had these answers. -/
def recordAll (height : Height) (answers : List (VoteKey × Except EngineError VoteOutcome))
    (s : MemoryStore) : MemoryStore :=
  answers.foldl (fun s a => s.record height a.1 a.2) s

/-- Votes are stored in any order, if none is there twice. -/
theorem recordAll_perm {answers answers' : List (VoteKey × Except EngineError VoteOutcome)}
    (hperm : answers.Perm answers') (hnodup : (answers.map Prod.fst).Nodup) (s : MemoryStore) :
    s.recordAll height answers = s.recordAll height answers' := by
  refine hperm.foldl_eq' (fun a ha b hb s => ?_) s
  by_cases hab : a.1 = b.1
  · rw [List.inj_on_of_nodup_map hnodup ha hb hab]
  · exact record_comm hab a.2 b.2

end MemoryStore

/-! ## All votes of a block -/

section

variable [PollStore S] [VoteStore S] [FaithfulStore S] [Ledger L] {Λ : L → Prop} {height : Height}

/-- **Casting votes** one after another gives each the answer that it would have had alone, and
stores those that are accepted. -/
theorem castAll_answers {weigh : Poll → AccountId → Except LedgerError Eligibility}
    (hsafe : ¬ FaithfulStore.fallible S)
    (hweigh : ∀ p voter, (p.weightOf voter height : Action L _ _).Returns Λ (weigh p voter))
    {v : World MemoryStore L} (hledger : Λ v.ledger) {ids : List VoteKey} (hnodup : ids.Nodup) :
    Yields (S := S) (castAll height ids) v
      (fun answers v' => answers = ids.map (fun id => (id, v.store.answerTo weigh height id)) ∧
        v'.store = v.store.recordAll height answers)
      (fun _ _ => False) := by
  induction ids generalizing v with
  | nil => exact .pure ⟨rfl, rfl⟩
  | cons id ids ih =>
    obtain ⟨hnew, hnodup⟩ := List.nodup_cons.1 hnodup
    have hcast : Yields (S := S) (castVote id.poll id.voter height).outcome v
        (fun answer v' => v.store.answerTo weigh height id = answer ∧
          v'.store = v.store.record height id answer ∧ Λ v'.ledger)
        (fun (_ : EngineError) _ => False) := .outcome (castVote_answers hsafe hweigh hledger id)
    refine .bind (hcast.mono ?_ fun _ _ he => he)
    rintro answer v₁ ⟨hanswer, hstore, hledger₁⟩
    refine .bind ((ih hledger₁ hnodup).mono ?_ fun _ _ he => he)
    rintro answers v' ⟨hanswers, hstore'⟩
    -- No vote that follows is this one, so that its answer does not see this one.
    have hsame : ∀ id' ∈ ids, v₁.store.answerTo weigh height id'
        = v.store.answerTo weigh height id' := by
      intro id' hid'
      have hne : id' ≠ id := fun heq => hnew (heq ▸ hid')
      rw [hstore, MemoryStore.answerTo_record hne]
    refine .pure ⟨?_, ?_⟩
    · rw [hanswers, List.map_cons, hanswer]
      refine congrArg _ (List.map_congr_left fun id' hid' => ?_)
      rw [hsame id' hid']
    · rw [hstore', hstore]
      rfl

/-- **The votes of one block commute.**  Over every store that does not fail, every ledger whose
balances at the height are what they are, whether asking for them succeeds or fails, and every list
of votes without repetition: casting them in another order, whatever becomes of each, gives every
vote the same answer and ends with the same polls and votes. -/
theorem votes_of_one_block_commute (hsafe : ¬ FaithfulStore.fallible S)
    {balance : AccountId → Holding → Except LedgerError Amount}
    (hbalance : ∀ account holding,
      (Ledger.balanceOf account holding height).Returns Λ (balance account holding))
    {w : World S L} (hledger : Λ w.ledger) {ids ids' : List VoteKey} (hnodup : ids.Nodup)
    (hperm : ids'.Perm ids) :
    ∃ answers w₁ answers' w₂,
      (castAll height ids).start w = (.ok answers, w₁) ∧
      (castAll height ids').start w = (.ok answers', w₂) ∧
      answers.map Prod.fst = ids ∧ answers'.map Prod.fst = ids' ∧ answers'.Perm answers ∧
      w₂.view.store = w₁.view.store := by
  -- What a vote counts is what the ledger answers now, and answers at any time.
  let weigh : Poll → AccountId → Except LedgerError Eligibility :=
    fun p voter => ((p.weightOf voter height).start w.ledger).1
  have hweigh : ∀ p voter, (p.weightOf voter height : Action L _ _).Returns Λ (weigh p voter) :=
    fun p voter => .of_respects
      (respects_weightOf (fun holding => (hbalance voter holding).respects) p) hledger
  have hrun : ∀ {ids : List VoteKey}, ids.Nodup → ∃ answers w',
      (castAll height ids).start w = (.ok answers, w') ∧
      answers = ids.map (fun id => (id, w.view.store.answerTo weigh height id)) ∧
      w'.view.store = w.view.store.recordAll height answers := by
    intro ids hnodup
    have hcast := castAll_answers (v := w.view) hsafe hweigh hledger hnodup
    rcases hx : (castAll height ids).start w with ⟨e | answers, w'⟩
    · exact (hcast.of_error hx).elim
    · exact ⟨answers, w', rfl, hcast.of_ok hx⟩
  obtain ⟨answers, w₁, hrun₁, hanswers, hstore₁⟩ := hrun hnodup
  obtain ⟨answers', w₂, hrun₂, hanswers', hstore₂⟩ := hrun (hperm.nodup_iff.2 hnodup)
  have hfst : ∀ ids : List VoteKey,
      (ids.map fun id => (id, w.view.store.answerTo weigh height id)).map Prod.fst = ids := by
    intro ids
    rw [List.map_map]
    exact List.map_id ids
  have hsame : answers'.Perm answers := by
    rw [hanswers, hanswers']
    exact hperm.map _
  refine ⟨answers, w₁, answers', w₂, hrun₁, hrun₂, hanswers ▸ hfst ids, hanswers' ▸ hfst ids',
    hsame, ?_⟩
  rw [hstore₁, hstore₂]
  refine MemoryStore.recordAll_perm hsame ?_ _
  rw [hanswers', hfst]
  exact hperm.nodup_iff.2 hnodup

end

/-- Of four votes, one is accepted, one fails since the ledger does not know the balances yet, and
two are refused.  Cast in the opposite order, they have the same answers. -/
theorem votes_of_one_block_commute_assorted :
    let ledger := SimulatedLedger.ofHolders.setTip 5
    let w : World MemoryStore SimulatedLedger :=
      ⟨.holding [(PollRequest.single (.filled 7) 10).toPoll 1,
        (PollRequest.amongHolders 10 [⟨5⟩, ⟨8⟩]).toPoll 1] [], ledger⟩
    let answers : List (VoteKey × Except EngineError VoteOutcome) :=
      [(⟨.filled 7, ⟨5⟩⟩, .ok (.accepted 1)),
        (⟨.ones, ⟨5⟩⟩, .error (.ledger (.heightNotFinal 9 5))),
        (⟨.ones, ⟨9⟩⟩, .ok (.rejected .notWhitelisted)),
        (⟨.filled 9, ⟨5⟩⟩, .ok (.rejected .pollNotFound))]
    let ids := answers.map Prod.fst
    ∃ w₁ w₂, (castAll 9 ids).start w = (.ok answers, w₁) ∧
      (castAll 9 ids.reverse).start w = (.ok answers.reverse, w₂) ∧
      w₁.store.votes.keys = [⟨.filled 7, ⟨5⟩⟩] ∧ w₂.store = w₁.store := by
  intro ledger w answers ids
  have hbalance : ∀ account holding, (Ledger.balanceOf account holding 9).Returns (· = ledger)
      (ledger.balanceOf account holding 9) := by
    rintro account holding _ rfl
    exact ⟨rfl, rfl⟩
  have hanswers : ((castAll 9 ids).start w).1 = .ok answers := by decide +kernel
  have hanswers' : ((castAll 9 ids.reverse).start w).1 = .ok answers.reverse := by decide +kernel
  have hvotes : ((castAll 9 ids).start w).2.store.votes.keys = [⟨.filled 7, ⟨5⟩⟩] := by
    decide +kernel
  obtain ⟨_, w₁, _, w₂, hrun, hrun', -, -, -, hstore⟩ := votes_of_one_block_commute (w := w)
    (fun h : False => h) hbalance rfl (by decide) ids.reverse_perm
  cases (congrArg Prod.fst hrun).symm.trans hanswers
  cases (congrArg Prod.fst hrun').symm.trans hanswers'
  rw [hrun] at hvotes
  exact ⟨w₁, w₂, hrun, hrun', hvotes, hstore⟩

end Finality
