/-!
# Sorting by a comparison

`sortBy cmp` puts a list into ascending order by inserting its members one by one, and keeps members
that compare equal in the order they came in.  The result is a permutation of the list
(`sortBy_perm`) in ascending order (`pairwise_sortBy`).  A list that ascends already stays as it is
(`sortBy_eq_self`), and one that descends is turned round (`sortBy_eq_reverse`).
-/

namespace Finality

variable {α : Type}

/-- Inserts a member before the first one that it is not above. -/
def insertBy (cmp : α → α → Ordering) (x : α) : List α → List α
  | [] => [x]
  | y :: ys => if cmp x y = .gt then y :: insertBy cmp x ys else x :: y :: ys

/-- A list in ascending order. -/
def sortBy (cmp : α → α → Ordering) (xs : List α) : List α := xs.foldr (insertBy cmp) []

theorem insertBy_perm (cmp : α → α → Ordering) (x : α) (ys : List α) :
    (insertBy cmp x ys).Perm (x :: ys) := by
  induction ys with
  | nil => exact List.Perm.refl _
  | cons y ys ih =>
    rw [insertBy]
    split
    · exact (ih.cons y).trans (List.Perm.swap x y ys)
    · exact List.Perm.refl _

/-- Sorting keeps the members of a list. -/
theorem sortBy_perm (cmp : α → α → Ordering) (xs : List α) : (sortBy cmp xs).Perm xs := by
  induction xs with
  | nil => exact List.Perm.nil
  | cons x xs ih => exact (insertBy_perm cmp x _).trans (ih.cons x)

theorem pairwise_insertBy (cmp : α → α → Ordering) [Std.TransCmp cmp] (x : α) {ys : List α}
    (h : ys.Pairwise fun a b => (cmp a b).isLE) :
    (insertBy cmp x ys).Pairwise fun a b => (cmp a b).isLE := by
  induction ys with
  | nil => exact List.pairwise_singleton _ _
  | cons y ys ih =>
    obtain ⟨hy, hys⟩ := List.pairwise_cons.1 h
    rw [insertBy]
    split
    · rename_i hgt
      refine List.pairwise_cons.2 ⟨fun z hz => ?_, ih hys⟩
      rcases List.mem_cons.1 ((insertBy_perm cmp x ys).mem_iff.1 hz) with rfl | hz
      · exact Ordering.isLE_of_eq_lt (Std.OrientedCmp.gt_iff_lt.1 hgt)
      · exact hy z hz
    · rename_i hle
      have hxy : (cmp x y).isLE := by
        cases hc : cmp x y with
        | gt => exact absurd hc hle
        | lt => rfl
        | eq => rfl
      refine List.pairwise_cons.2 ⟨fun z hz => ?_, h⟩
      rcases List.mem_cons.1 hz with rfl | hz
      · exact hxy
      · exact Std.TransCmp.isLE_trans hxy (hy z hz)

/-- A sorted list ascends. -/
theorem pairwise_sortBy (cmp : α → α → Ordering) [Std.TransCmp cmp] (xs : List α) :
    (sortBy cmp xs).Pairwise fun a b => (cmp a b).isLE := by
  induction xs with
  | nil => exact List.Pairwise.nil
  | cons x xs ih => exact pairwise_insertBy cmp x ih

/-- A list that ascends already is left as it is. -/
theorem sortBy_eq_self {cmp : α → α → Ordering} {xs : List α}
    (h : xs.Pairwise fun a b => cmp a b ≠ .gt) : sortBy cmp xs = xs := by
  induction xs with
  | nil => rfl
  | cons x xs ih =>
    obtain ⟨hx, hxs⟩ := List.pairwise_cons.1 h
    change insertBy cmp x (sortBy cmp xs) = x :: xs
    rw [ih hxs]
    cases xs with
    | nil => rfl
    | cons y ys => rw [insertBy, if_neg (hx y (List.mem_cons_self ..))]

/-- What is above all members of a list is put behind them. -/
theorem insertBy_eq_append {cmp : α → α → Ordering} {x : α} {ys : List α}
    (h : ∀ y ∈ ys, cmp x y = .gt) : insertBy cmp x ys = ys ++ [x] := by
  induction ys with
  | nil => rfl
  | cons y ys ih =>
    obtain ⟨hy, hys⟩ := List.forall_mem_cons.1 h
    rw [insertBy, if_pos hy, ih hys, List.cons_append]

/-- A list that descends is turned round. -/
theorem sortBy_eq_reverse {cmp : α → α → Ordering} {xs : List α}
    (h : xs.Pairwise fun a b => cmp a b = .gt) : sortBy cmp xs = xs.reverse := by
  induction xs with
  | nil => rfl
  | cons x xs ih =>
    obtain ⟨hx, hxs⟩ := List.pairwise_cons.1 h
    change insertBy cmp x (sortBy cmp xs) = (x :: xs).reverse
    rw [ih hxs, List.reverse_cons]
    exact insertBy_eq_append fun y hy => hx y (List.mem_reverse.1 hy)

end Finality
