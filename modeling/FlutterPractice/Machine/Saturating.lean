import Mathlib

/-! # Saturating sums

A level between two bounds that changes add to, cut off at the bounds. What is
cut off is forgotten, so the level is not the sum of the changes. It is that
sum between the levels of two other containers under the same changes, one
empty at the start and one full.
-/

namespace Saturating

variable {α : Type*} [LinearOrder α]

def add [Add α] (a b x d : α) : α := max a (min b (x + d))

def sum [Add α] (a b x : α) (ds : List α) : α := ds.foldl (add a b) x

theorem max_min_distrib (a b p q r : α) : max a (min b (max p (min q r))) =
    max (max a (min b p)) (min (max a (min b q)) r) := by
  have habsorb : max (max a (min b p)) (min a r) = max a (min b p) :=
    max_eq_left ((min_le_left a r).trans (le_max_left a _))
  calc
    max a (min b (max p (min q r))) = max (max a (min b p)) (min (min b q) r) := by
      rw [min_max_distrib_left, ← max_assoc, ← min_assoc]
    _ = max (max (max a (min b p)) (min a r)) (min (min b q) r) := by rw [habsorb]
    _ = max (max a (min b p)) (min (max a (min b q)) r) := by
      rw [min_max_distrib_right, max_assoc]

section Bounds

variable [Add α] {a b x d : α} {ds : List α}

theorem sum_append_singleton : sum a b x (ds ++ [d]) = add a b (sum a b x ds) d :=
  List.foldl_append

theorem le_sum (hx : a ≤ x) : a ≤ sum a b x ds := by
  induction ds using List.reverseRecOn with
  | nil => exact hx
  | append_singleton ds d ih =>
    rw [sum_append_singleton]
    exact le_max_left _ _

theorem sum_le (hab : a ≤ b) (hx : x ≤ b) : sum a b x ds ≤ b := by
  induction ds using List.reverseRecOn with
  | nil => exact hx
  | append_singleton ds d ih =>
    rw [sum_append_singleton]
    exact max_le hab (min_le_left _ _)

end Bounds

variable [AddCommGroup α] [IsOrderedAddMonoid α] {a b x y : α} {ds : List α}

/-- Between the level from the bottom and the level from the top, the changes add up. -/
theorem sum_eq (ha : a ≤ x) (hb : x ≤ b) :
    sum a b x ds = max (sum a b a ds) (min (sum a b b ds) (x + ds.sum)) := by
  induction ds using List.reverseRecOn with
  | nil => simp [sum, ha, hb]
  | append_singleton ds d ih =>
    have hsum : x + (ds ++ [d]).sum = x + ds.sum + d := by
      rw [List.sum_append, List.sum_singleton, add_assoc]
    rw [sum_append_singleton, sum_append_singleton, sum_append_singleton, ih, hsum]
    simp only [add, ← max_add_add_right, ← min_add_add_right]
    exact max_min_distrib _ _ _ _ _

end Saturating
