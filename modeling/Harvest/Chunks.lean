/-! # Chunks of a list

A long list is worked off in chunks of a fixed size, the last one being shorter.
-/

namespace Harvest

/-- Splits a list into chunks of a size, at least one, the last chunk being shorter. -/
def chunksOf {α : Type} (size : Nat) : List α → List (List α)
  | [] => []
  | x :: xs => (x :: xs.take size.pred) :: chunksOf size (xs.drop size.pred)
termination_by xs => xs.length
decreasing_by
  simp only [List.length_drop, List.length_cons]
  omega

/-- Nothing is lost or added, and the order stays. -/
theorem flatten_chunksOf {α : Type} (size : Nat) (xs : List α) :
    (chunksOf size xs).flatten = xs := by
  fun_induction chunksOf size xs with
  | case1 => rfl
  | case2 x xs ih => rw [List.flatten_cons, ih, List.cons_append, List.take_append_drop]

end Harvest
