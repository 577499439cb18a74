/-! # Min-max heaps

A min-max heap keeps entries in a tree whose levels take turns: an entry on an even level comes
before every entry below it, and an entry on an odd level after. Both ends of the order are at the
top. Of entries that are equal in the order the tree decides which one is reached first.

The tree lies in a list, level by level; the children of place `i` lie at `2 * i + 1` and
`2 * i + 2`. Every operation is a rearrangement, which is all that a queue has to know.

## Main definitions

* `MinMaxHeap.push`, `MinMaxHeap.replace`, `MinMaxHeap.remove`: the operations, up to order an
  addition, a replacement and a removal.
-/

namespace Harvest.MinMaxHeap

variable {α : Type} {n : Nat}

/-! ## Places -/

def parent (i : Nat) : Nat := (i - 1) / 2

/-- The place lies on an even level, counted from the top. -/
def onEvenLevel (i : Nat) : Bool := Nat.log2 (i + 1) % 2 == 0

/-- The places of the children and grandchildren, in order. -/
def descendants (i : Fin n) : List (Fin n) :=
  let l := 2 * i.val + 1
  let r := 2 * i.val + 2
  [l, r, 2 * l + 1, 2 * l + 2, 2 * r + 1, 2 * r + 2].filterMap fun j =>
    if h : j < n then some ⟨j, h⟩ else none

theorem parent_lt {i : Nat} (h : 0 < i) : parent i < i := by
  unfold parent
  omega

/-! ## Upwards -/

/-- The order turned around, as it is on odd levels. -/
def turned (before : α → α → Bool) (a b : α) : Bool := before b a

/-- Lets an entry climb past the grandparents that it comes before; gives its place. -/
def climb (before : α → α → Bool) (v : Vector α n) (i : Fin n) : Vector α n × Fin n :=
  if h : 2 < i.val then
    have hg : parent (parent i.val) < i.val := by
      unfold parent
      omega
    let g : Fin n := ⟨parent (parent i.val), Nat.lt_trans hg i.isLt⟩
    if before v[i] v[g] then climb before (v.swap i g) g else (v, i)
  else (v, i)
termination_by i.val

/-- Lets an entry rise to where it belongs; gives its place. An entry on an odd level that does not
come after its parent changes places with it. -/
def rise (before : α → α → Bool) (v : Vector α n) (i : Fin n) : Vector α n × Fin n :=
  if h : 0 < i.val then
    let p : Fin n := ⟨parent i.val, Nat.lt_trans (parent_lt h) i.isLt⟩
    match onEvenLevel i, before v[p] v[i] with
    | true, true => climb (turned before) (v.swap i p) p
    | true, false => climb before v i
    | false, true => climb (turned before) v i
    | false, false => climb before (v.swap i p) p
  else (v, i)

/-! ## Downwards -/

/-- The first of some places whose entry no entry of the others comes before. -/
def foremost? (before : α → α → Bool) (v : Vector α n) : List (Fin n) → Option (Fin n)
  | [] => none
  | i :: is =>
    match foremost? before v is with
    | none => some i
    | some j => if before v[j] v[i] then some j else some i

/-- Lets an entry sink to where it belongs among the levels of its kind, for at most some steps.
Descendants are looked at in a given arrangement. -/
def sink (before : α → α → Bool) (arrange : List (Fin n) → List (Fin n)) :
    Nat → Vector α n → Fin n → Vector α n
  | 0, v, _ => v
  | steps + 1, v, i =>
    match foremost? before v (arrange (descendants i)) with
    | none => v
    | some j =>
      if before v[j] v[i] then
        let w := v.swap j i
        if j.val ≤ 2 * i.val + 2 then w
        else
          let p : Fin n := ⟨parent j.val, by unfold parent; omega⟩
          sink before arrange steps (if before w[p] w[j] then w.swap j p else w) j
      else v

/-- Lets an entry sink; on odd levels the last of equal descendants moves up. -/
def settle (before : α → α → Bool) (v : Vector α n) (i : Fin n) : Vector α n :=
  if onEvenLevel i then sink before id n v i else sink (turned before) List.reverse n v i

/-- Brings a changed entry to where it belongs. -/
def adjust (before : α → α → Bool) (v : Vector α n) (i : Fin n) : Vector α n :=
  let (w, j) := rise before v i
  settle before (if i = j then w else settle before w i) j

/-! ## Rearrangements -/

theorem perm_climb (before : α → α → Bool) (v : Vector α n) (i : Fin n) :
    (climb before v i).1.Perm v := by
  fun_induction climb before v i with
  | case1 v i _ _ g _ ih => exact ih.trans (Vector.swap_perm i.isLt g.isLt)
  | case2 => exact Vector.Perm.refl _
  | case3 => exact Vector.Perm.refl _

theorem perm_rise (before : α → α → Bool) (v : Vector α n) (i : Fin n) :
    (rise before v i).1.Perm v := by
  unfold rise
  split
  · dsimp only
    split
    · exact (perm_climb _ _ _).trans (Vector.swap_perm _ _)
    · exact perm_climb _ _ _
    · exact perm_climb _ _ _
    · exact (perm_climb _ _ _).trans (Vector.swap_perm _ _)
  · exact Vector.Perm.refl _

theorem perm_sink (before : α → α → Bool) (arrange : List (Fin n) → List (Fin n)) (steps : Nat)
    (v : Vector α n) (i : Fin n) : (sink before arrange steps v i).Perm v := by
  induction steps generalizing v i with
  | zero => exact Vector.Perm.refl _
  | succ steps ih =>
    unfold sink
    split
    · exact Vector.Perm.refl _
    · rename_i j _
      split
      · have hs : (v.swap j i).Perm v := Vector.swap_perm j.isLt i.isLt
        dsimp only
        split
        · exact hs
        · refine (ih _ _).trans ?_
          split
          · exact (Vector.swap_perm _ _).trans hs
          · exact hs
      · exact Vector.Perm.refl _

theorem perm_settle (before : α → α → Bool) (v : Vector α n) (i : Fin n) :
    (settle before v i).Perm v := by
  unfold settle
  split <;> exact perm_sink _ _ _ _ _

theorem perm_adjust (before : α → α → Bool) (v : Vector α n) (i : Fin n) :
    (adjust before v i).Perm v := by
  unfold adjust
  refine (perm_settle _ _ _).trans ?_
  split
  · exact perm_rise _ _ _
  · exact (perm_settle _ _ _).trans (perm_rise _ _ _)

/-! ## Operations on the list -/

/-- Rearranges a list around a place. -/
def rearrange (f : (n : Nat) → Vector α n → Fin n → Vector α n) (xs : List α) (i : Nat) : List α :=
  if h : i < xs.length then (f xs.length ⟨xs.toArray, rfl⟩ ⟨i, h⟩).toList else xs

theorem perm_rearrange {f : (n : Nat) → Vector α n → Fin n → Vector α n}
    (hf : ∀ n (v : Vector α n) i, (f n v i).Perm v) (xs : List α) (i : Nat) :
    (rearrange f xs i).Perm xs := by
  unfold rearrange
  split
  · exact (hf _ _ _).toList
  · exact List.Perm.refl _

/-- Adds an entry. -/
def push (before : α → α → Bool) (xs : List α) (x : α) : List α :=
  rearrange (fun _ v i => (rise before v i).1) (xs ++ [x]) xs.length

/-- Puts an entry in place of another one. -/
def replace (before : α → α → Bool) (xs : List α) (i : Nat) (x : α) : List α :=
  rearrange (fun _ => adjust before) (xs.set i x) i

/-- The last entry takes a place, whose entry goes. -/
def vacate (xs : List α) (i : Nat) : List α :=
  match xs.getLast? with
  | none => xs
  | some x => xs.dropLast.set i x

/-- Takes out the entry at a place. -/
def remove (before : α → α → Bool) (xs : List α) (i : Nat) : List α :=
  rearrange (fun _ => settle before) (vacate xs i) i

theorem perm_push (before : α → α → Bool) (xs : List α) (x : α) :
    (push before xs x).Perm (xs ++ [x]) := perm_rearrange (fun _ => perm_rise before) _ _

theorem perm_replace (before : α → α → Bool) (xs : List α) (i : Nat) (x : α) :
    (replace before xs i x).Perm (xs.set i x) := perm_rearrange (fun _ => perm_adjust before) _ _

theorem perm_remove (before : α → α → Bool) (xs : List α) (i : Nat) :
    (remove before xs i).Perm (vacate xs i) := perm_rearrange (fun _ => perm_settle before) _ _

theorem perm_set (x : α) {xs : List α} {i : Nat} (h : i < xs.length) :
    (xs[i] :: xs.set i x).Perm (x :: xs) := by
  induction xs generalizing i with
  | nil => simp at h
  | cons y ys ih =>
    cases i with
    | zero => exact List.Perm.swap x y ys
    | succ i =>
      have hi : i < ys.length := by simpa using h
      calc ys[i] :: y :: ys.set i x
        _ |>.Perm (y :: ys[i] :: ys.set i x) := List.Perm.swap _ _ _
        _ |>.Perm (y :: x :: ys) := (ih hi).cons y
        _ |>.Perm (x :: y :: ys) := List.Perm.swap _ _ _

theorem perm_vacate {xs : List α} {i : Nat} (h : i < xs.length) :
    (xs[i] :: vacate xs i).Perm xs := by
  rcases List.eq_nil_or_concat xs with rfl | ⟨ys, x, rfl⟩
  · simp at h
  · simp only [List.concat_eq_append, List.length_append, List.length_singleton] at h
    simp only [vacate, List.concat_eq_append, List.getLast?_append, List.getLast?_singleton,
      Option.some_or, List.dropLast_concat]
    by_cases hi : i < ys.length
    · simp only [List.getElem_append_left hi]
      exact (perm_set x hi).trans (List.perm_append_singleton x ys).symm
    · have : i = ys.length := by omega
      subst this
      simp only [List.getElem_concat_length, List.set_eq_of_length_le, Nat.le_refl]
      exact (List.perm_append_singleton x ys).symm

end Harvest.MinMaxHeap
