import Harvest.Proofs.Calendar.Dates
import Mathlib.Data.List.Nodup

/-! # Tables by day

A table has an entry for some days, each of them once and in order. An entry is changed in its
place, and a new one is put where it belongs, so the table stays in order. It is told by what it has
for each day: two tables that have the same for every day are the same list.

## Main definitions

* `DayTable.InOrder`: each day once, in order.
* `DayTable.alter`: the entry of a day changed, or a new one.

## Main statements

* `DayTable.lookup_alter`: what a table has for each day after a change.
* `DayTable.InOrder.alter`: a change keeps the order.
* `DayTable.InOrder.ext`: a table is told by what it has for each day.
-/

namespace Harvest.Calendar

theorem Date.lt_of_not_lt {d e : Date} (hne : d ≠ e) (hlt : ¬ d < e) : e < d := by
  have hnumber : d.dayNumber ≠ e.dayNumber := fun h => hne (dayNumber_inj h)
  have hlt : ¬ d.dayNumber < e.dayNumber := hlt
  show e.dayNumber < d.dayNumber
  omega

theorem Date.ne_of_lt {d e : Date} (h : d < e) : d ≠ e := by
  rintro rfl
  exact Int.lt_irrefl _ h

namespace DayTable

variable {α : Type} {d e : Date} {x : α} {f : Option α → α} {days days' : List (Date × α)}

/-- Each day is there once, in order. -/
def InOrder (days : List (Date × α)) : Prop := days.Pairwise fun a b => a.1 < b.1

/-- Changes the entry of a day, or makes one in its place. -/
def alter (d : Date) (f : Option α → α) : List (Date × α) → List (Date × α)
  | [] => [(d, f none)]
  | (e, x) :: rest =>
    if d = e then (d, f (some x)) :: rest
    else if d < e then (d, f none) :: (e, x) :: rest
    else (e, x) :: alter d f rest

/-! ## What there is for a day -/

theorem lookup_eq_none (h : ∀ x ∈ days, d < x.1) : days.lookup d = none := by
  rw [List.lookup_eq_none_iff]
  intro x hx
  exact bne_iff_ne.mpr (Date.ne_of_lt (h x hx))

theorem lookup_cons (d e : Date) (x : α) (rest : List (Date × α)) :
    ((d, x) :: rest).lookup e = if d = e then some x else rest.lookup e := by
  rw [List.lookup_cons]
  by_cases hde : d = e
  · rw [if_pos hde, hde, beq_self_eq_true]
  · rw [if_neg hde, beq_false_of_ne (Ne.symm hde)]

/-- What there is for the day changes, and what there is for the others does not. -/
theorem lookup_alter (h : InOrder days) :
    (alter d f days).lookup e = if d = e then some (f (days.lookup d)) else days.lookup e := by
  induction days with
  | nil => exact lookup_cons d e (f none) []
  | cons y rest ih =>
    obtain ⟨y, x⟩ := y
    obtain ⟨hfirst, hrest⟩ := List.pairwise_cons.mp h
    unfold alter
    -- the day is there, or comes before all that are there, or is further on
    by_cases heq : d = y
    · subst heq
      rw [if_pos rfl, lookup_cons, lookup_cons, lookup_cons, if_pos rfl]
      by_cases hde : d = e
      · rw [if_pos hde, if_pos hde]
      · rw [if_neg hde, if_neg hde, if_neg hde]
    · rw [if_neg heq]
      by_cases hlt : d < y
      · have hnone : ((y, x) :: rest).lookup d = none := by
          apply lookup_eq_none
          intro z hz
          rcases List.mem_cons.mp hz with rfl | hz
          · exact hlt
          · exact Int.lt_trans hlt (hfirst z hz)
        rw [if_pos hlt, lookup_cons, hnone]
      · rw [if_neg hlt, lookup_cons, lookup_cons, lookup_cons, if_neg (Ne.symm heq), ih hrest]
        -- the entry that is passed by is for another day
        by_cases hye : y = e
        · have hde : d ≠ e := fun hde => heq (hde.trans hye.symm)
          rw [if_pos hye, if_neg hde, if_pos hye]
        · rw [if_neg hye, if_neg hye]

/-! ## Order -/

theorem mem_alter : e ∈ (alter d f days).map Prod.fst ↔ e = d ∨ e ∈ days.map Prod.fst := by
  induction days with
  | nil => exact List.mem_singleton.trans (or_iff_left List.not_mem_nil).symm
  | cons y rest ih =>
    obtain ⟨y, x⟩ := y
    unfold alter
    split
    · rename_i hd
      subst hd
      simp
    · split
      · simp
      · rw [List.map_cons, List.map_cons, List.mem_cons, List.mem_cons, ih, or_left_comm]

/-- A change keeps the order. -/
theorem InOrder.alter (h : InOrder days) : InOrder (alter d f days) := by
  induction days with
  | nil => exact List.pairwise_singleton _ _
  | cons y rest ih =>
    obtain ⟨y, x⟩ := y
    obtain ⟨hfirst, hrest⟩ := List.pairwise_cons.mp h
    unfold DayTable.alter
    by_cases heq : d = y
    · subst heq
      rw [if_pos rfl]
      exact List.pairwise_cons.mpr ⟨hfirst, hrest⟩
    · rw [if_neg heq]
      by_cases hlt : d < y
      · rw [if_pos hlt]
        refine List.pairwise_cons.mpr ⟨?_, h⟩
        intro z hz
        rcases List.mem_cons.mp hz with rfl | hz
        · exact hlt
        · exact Int.lt_trans hlt (hfirst z hz)
      · rw [if_neg hlt]
        refine List.pairwise_cons.mpr ⟨?_, ih hrest⟩
        intro z hz
        rcases mem_alter.mp (List.mem_map_of_mem hz) with hd | hold
        · rw [hd]
          exact Date.lt_of_not_lt heq hlt
        · obtain ⟨z', hz', hzz'⟩ := List.mem_map.mp hold
          rw [← hzz']
          exact hfirst z' hz'

/-! ## A table is told by its entries -/

theorem InOrder.nodup (h : InOrder days) : days.Nodup :=
  h.imp fun hlt heq => Date.ne_of_lt hlt (congrArg Prod.fst heq)

/-- The entries are what there is for their days. -/
theorem InOrder.mem_iff (h : InOrder days) : (d, x) ∈ days ↔ days.lookup d = some x := by
  induction days with
  | nil => exact iff_of_false List.not_mem_nil nofun
  | cons y rest ih =>
    obtain ⟨y, x'⟩ := y
    obtain ⟨hfirst, hrest⟩ := List.pairwise_cons.mp h
    rw [List.mem_cons, lookup_cons]
    by_cases hyd : y = d
    · subst hyd
      -- a later entry is for another day
      have hlater : (y, x) ∉ rest := fun hmem => Date.ne_of_lt (hfirst _ hmem) rfl
      rw [or_iff_left hlater, if_pos rfl, Prod.mk.injEq, Option.some.injEq, eq_comm (a := x')]
      exact and_iff_right rfl
    · have hother : (d, x) ≠ (y, x') := fun heq => hyd (congrArg Prod.fst heq).symm
      rw [or_iff_right hother, if_neg hyd]
      exact ih hrest

/-- Tables that have the same for every day are the same. -/
theorem InOrder.ext (h : InOrder days) (h' : InOrder days')
    (heq : ∀ d, days.lookup d = days'.lookup d) : days = days' := by
  have hmem : ∀ y, y ∈ days ↔ y ∈ days' := by
    rintro ⟨d, x⟩
    rw [h.mem_iff, h'.mem_iff, heq]
  -- the same entries come in some order, and there is only one that is sorted
  have hperm : days.Perm days' := (List.perm_ext_iff_of_nodup h.nodup h'.nodup).mpr hmem
  refine hperm.eq_of_pairwise ?_ h h'
  intro y z _ _ (hlt : y.1.dayNumber < z.1.dayNumber) (hgt : z.1.dayNumber < y.1.dayNumber)
  omega

end DayTable

end Harvest.Calendar
