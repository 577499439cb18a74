/-! # Totals over a list

The sum of a count over the members of a list.
-/

namespace Harvest

variable {α : Type}

/-- The sum of a count over a list. -/
def totalOf (count : α → Nat) : List α → Nat
  | [] => 0
  | x :: xs => count x + totalOf count xs

@[simp] theorem totalOf_nil (count : α → Nat) : totalOf count [] = 0 := rfl

@[simp] theorem totalOf_cons (count : α → Nat) (x : α) (xs : List α) :
    totalOf count (x :: xs) = count x + totalOf count xs := rfl

@[simp] theorem totalOf_append (count : α → Nat) (xs ys : List α) :
    totalOf count (xs ++ ys) = totalOf count xs + totalOf count ys := by
  induction xs with
  | nil => simp
  | cons x xs ih => simp [ih, Nat.add_assoc]

end Harvest
