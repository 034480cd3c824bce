import Finality.Proofs.Action
import Finality.Proofs.Ledger.Simulated
import Finality.Engine.Weight

/-!
# Balances and releases

A release counts for the balances from the height it is recorded at onwards.  A ledger that forgets
some releases therefore gives the same balances at a height, unless one that it forgets counts there
(`balanceOf_keeping`).

* `without` — the ledger that forgets the releases of one block.
* `before` — the ledger as it was when that block began, with only the releases of earlier blocks.
* `weightOf_congr` — what a vote counts depends on the voter's balances at one height, and on
  nothing else of the ledger.
-/

namespace Finality

/-- Elements that change nothing when they are folded in need not be there. -/
theorem foldr_filter_filter {α β : Type} {f : α → β → β} {p q : α → Bool} {b : β} {xs : List α}
    (h : ∀ x ∈ xs, q x = true → p x = false → ∀ c, f x c = c) :
    ((xs.filter p).filter q).foldr f b = (xs.filter q).foldr f b := by
  rw [List.filter_filter]
  induction xs with
  | nil => rfl
  | cons x xs ih =>
    have htail := ih fun y hy => h y (List.mem_cons_of_mem _ hy)
    have hhead := h x (List.mem_cons_self ..)
    by_cases hq : q x = true
    · by_cases hp : p x = true
      · simp [hq, hp, htail]
      · simp [hq, hp, htail, hhead hq (Bool.eq_false_iff.2 hp)]
    · simp [hq, htail]

namespace SimulatedLedger

/-- The ledger that forgets all releases but those recorded at these heights. -/
def keeping (f : Height → Bool) (l : SimulatedLedger) : SimulatedLedger :=
  { l with released := l.released.filter fun _ r => f r }

/-- The ledger that forgets the releases made in the block at a height. -/
def without (height : Height) (l : SimulatedLedger) : SimulatedLedger := l.keeping (· ≠ height)

/-- The ledger with the releases of the blocks below a height alone, and all balances final. -/
def before (height : Height) (l : SimulatedLedger) : SimulatedLedger :=
  { l.keeping (· < height) with tip := none }

variable {l l' : SimulatedLedger} {account : AccountId} {holding : Holding} {height : Height}

/-! ## Forgetting releases -/

theorem find?_keeping {f : Height → Bool} {t : Hash} {r : Height} :
    (l.keeping f).released.find? t = some r ↔ l.released.find? t = some r ∧ f r = true := by
  show (l.released.filter fun _ r => f r).find? t = some r ↔ _
  rw [Table.find?_filter, Option.filter_eq_some_iff]

/-- The transfers released add the same to a balance if those that are forgotten add nothing. -/
theorem releasedEffect_keeping {f : Height → Bool}
    (h : ∀ t r, l.released.find? t = some r → r ≤ height → f r = false →
      ∀ tr, l.deferred.find? t = some tr → tr.effectOn account holding = 0) :
    (l.keeping f).releasedEffect account holding height
      = l.releasedEffect account holding height := by
  unfold releasedEffect
  refine foldr_filter_filter ?_
  rintro ⟨t, r⟩ he hcounts hforgotten total
  dsimp only [keeping]
  split
  · rename_i tr htransfer
    have hzero := h t r ((l.released.mem_entries_iff t r).1 he) (of_decide_eq_true hcounts)
      hforgotten tr htransfer
    rw [hzero, Int.zero_add]
  · rfl

/-- **Balances are the same** if the releases that are forgotten add nothing to them. -/
theorem balanceOf_keeping {f : Height → Bool}
    (h : ∀ t r, l.released.find? t = some r → r ≤ height → f r = false →
      ∀ tr, l.deferred.find? t = some tr → tr.effectOn account holding = 0) :
    (l.keeping f).balanceOf account holding height = l.balanceOf account holding height := by
  unfold balanceOf
  rw [releasedEffect_keeping h]
  rfl

/-- A balance that is final does not depend on the tip. -/
theorem balanceOf_final (h : ∀ tip, l.tip = some tip → height ≤ tip) :
    ({ l with tip := none } : SimulatedLedger).balanceOf account holding height
      = l.balanceOf account holding height := by
  unfold balanceOf
  cases htip : l.tip with
  | none => rfl
  | some tip =>
    dsimp only
    rw [if_neg (UInt64.not_lt.2 (h tip htip))]
    rfl

/-- Balances are those before the block, if it has released nothing. -/
theorem balanceOf_before (htip : ∀ tip, l.tip = some tip → height ≤ tip)
    (h : ∀ t r, l.released.find? t = some r → r ≠ height) :
    (l.before height).balanceOf account holding height = l.balanceOf account holding height := by
  have hkeeping : (l.keeping (· < height)).balanceOf account holding height
      = l.balanceOf account holding height := by
    refine balanceOf_keeping fun t r hr hle hnot => ?_
    exact absurd (UInt64.lt_of_le_of_ne hle (h t r hr)) (of_decide_eq_false hnot)
  rw [← hkeeping]
  exact balanceOf_final htip

/-- A ledger that has changed in the records of releases of this block and later ones, and in its
tip, looks the same from before the block. -/
theorem before_eq (hframe : l' = { l with released := l'.released, tip := l'.tip })
    (h : ∀ t r, r < height → (l'.released.find? t = some r ↔ l.released.find? t = some r)) :
    l'.before height = l.before height := by
  have hreleased : (l'.released.filter fun _ r => r < height)
      = l.released.filter fun _ r => r < height := by
    refine Table.ext_find? fun t => Option.ext fun r => ?_
    rw [Table.find?_filter, Table.find?_filter, Option.filter_eq_some_iff,
      Option.filter_eq_some_iff]
    exact and_congr_left fun hr => h t r (of_decide_eq_true hr)
  unfold before keeping
  rw [hreleased, hframe]

/-- The releases of the block itself make no difference. -/
theorem before_without : (l.without height).before height = l.before height := by
  refine before_eq rfl fun t r hr => ?_
  rw [without, find?_keeping]
  exact and_iff_left (decide_eq_true (UInt64.ne_of_lt hr))

/-- Releases recorded at this height or above make no difference. -/
theorem Records.before_eq {record : Height} {ts : List Hash}
    (h : Records (some record) l ts l') (habove : height ≤ record) :
    l'.before height = l.before height := by
  refine SimulatedLedger.before_eq ?_ fun t r hr => ?_
  · rw [h.frame]
  · rw [h.after]
    split
    · rename_i hmem
      rw [h.before rfl t hmem]
      refine ⟨fun heq => ?_, fun heq => (by cases heq)⟩
      cases heq
      exact absurd habove (UInt64.not_le.2 hr)
    · exact Iff.rfl

/-- Nor do releases undone that were recorded there. -/
theorem Records.before_eq_undone {ts : List Hash} (h : Records none l ts l')
    (habove : ∀ t ∈ ts, ∀ r, l.released.find? t = some r → height ≤ r) :
    l'.before height = l.before height := by
  refine SimulatedLedger.before_eq ?_ fun t r hr => ?_
  · rw [h.frame]
  · rw [h.after]
    split
    · rename_i hmem
      refine ⟨fun heq => (by cases heq), fun heq => ?_⟩
      exact absurd (habove t hmem r heq) (UInt64.not_le.2 hr)
    · exact Iff.rfl

end SimulatedLedger

/-! ## Weights -/

section

variable {σ : Type} [Ledger σ] {R : σ → σ → Prop} {voter : AccountId} {height : Height}

/-- What a vote counts is read off the voter's balances at one height. -/
theorem respects_weightOf
    (hR : ∀ holding, (Ledger.balanceOf voter holding height).Respects R) (p : Poll) :
    (p.weightOf voter height).Respects R := by
  have hfloor : ∀ floor required, (checkFloor floor required voter height).Respects R := by
    intro floor required
    unfold checkFloor
    split
    · exact .pure _
    · split
      · exact .pure _
      · exact .bind (hR _) fun _ => .pure _
  unfold Poll.weightOf VoterCriteria.weight
  split
  · exact .pure _
  · exact .pure _
  · refine .bind (hfloor _ _) fun reason => ?_
    cases reason <;> exact .pure _
  all_goals
    refine .bind (hfloor _ _) fun reason => ?_
    cases reason with
    | some reason => exact .pure _
    | none => exact .bind (hR _) fun _ => .pure _

/-- **What a vote counts** is the same wherever the voter's balances at its height are. -/
theorem weightOf_congr {l l' : SimulatedLedger}
    (h : ∀ holding, l'.balanceOf voter holding height = l.balanceOf voter holding height)
    (p : Poll) :
    ((p.weightOf voter height).start l').1 = ((p.weightOf voter height).start l).1 := by
  let R : SimulatedLedger → SimulatedLedger → Prop := fun l' l =>
    ∀ holding, l'.balanceOf voter holding height = l.balanceOf voter holding height
  have hR : ∀ holding, (Ledger.balanceOf voter holding height :
      Action SimulatedLedger LedgerError Amount).Respects R := fun holding _ _ h => ⟨h holding, h⟩
  exact (respects_weightOf hR p l' l h).1

/-- What a vote counts depends on the voting criteria of the poll alone. -/
theorem Poll.weightOf_of_criteria {p q : Poll} (h : p.criteria = q.criteria) :
    (p.weightOf voter height : Action σ LedgerError Eligibility) = q.weightOf voter height := by
  unfold weightOf
  rw [h]

end

end Finality
