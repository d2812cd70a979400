/-!
# Totals

The total of a list is the sum of what a function gives for its items.
-/

namespace Decommission

variable {α : Type}

/-- The sum of what a function gives for the items of a list. -/
def total (f : α → Nat) : List α → Nat
  | [] => 0
  | x :: xs => f x + total f xs

theorem total_append (f : α → Nat) (xs ys : List α) :
    total f (xs ++ ys) = total f xs + total f ys := by
  induction xs with
  | nil => rw [List.nil_append, total, Nat.zero_add]
  | cons x xs ih => rw [List.cons_append, total, total, ih, Nat.add_assoc]

theorem le_total_of_getElem? (f : α → Nat) {xs : List α} {i : Nat} {x : α}
    (h : xs[i]? = some x) : f x ≤ total f xs := by
  induction xs generalizing i with
  | nil => cases h
  | cons y ys ih =>
    cases i with
    | zero =>
      cases h
      exact Nat.le_add_right ..
    | succ i => exact Nat.le_trans (ih h) (Nat.le_add_left ..)

/-- Replacing an item changes the total by the difference of the two items. -/
theorem total_set (f : α → Nat) {xs : List α} {i : Nat} {x : α} (h : xs[i]? = some x) (y : α) :
    total f (xs.set i y) + f x = total f xs + f y := by
  induction xs generalizing i with
  | nil => cases h
  | cons z zs ih =>
    cases i with
    | zero =>
      cases h
      show f y + total f zs + f x = f x + total f zs + f y
      omega
    | succ i =>
      have hi := ih h
      show f z + total f (zs.set i y) + f x = f z + total f zs + f y
      omega

end Decommission
