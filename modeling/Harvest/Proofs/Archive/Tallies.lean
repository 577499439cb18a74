import Harvest.Archive.Tally
import Harvest.Proofs.Calendar.DayTables

/-! # What tallies count

A tally counts every killmail that it observes once, on the day of its time. So its total grows by
the number of killmails observed, in whatever order they come, and each day is given the counts of
its killmails.

## Main statements

* `Tally.total_observe`, `Tally.total_foldr_observe`: the total after one killmail, and after more.
* `Tally.day_observe`, `Tally.day_foldr_observe`: the counts of a day after one killmail, and after
  more.
-/

namespace Harvest

namespace Tally

theorem totalOf_addOn (d : Calendar.Date) (k : Killmail) (days : List (Calendar.Date × DayTally)) :
    totalOf (fun d => d.2.total) (addOn d k days) = totalOf (fun d => d.2.total) days + 1 := by
  induction days with
  | nil => rfl
  | cons e rest ih =>
    obtain ⟨e, t⟩ := e
    unfold addOn
    -- the day is this one, or comes before it and is new, or is further on
    by_cases heq : d = e
    · rw [if_pos heq, totalOf_cons, totalOf_cons]
      show t.total + 1 + _ = t.total + _ + 1
      omega
    · rw [if_neg heq]
      by_cases hlt : d < e
      · rw [if_pos hlt, totalOf_cons, totalOf_cons]
        show 0 + 1 + _ = _
        omega
      · rw [if_neg hlt, totalOf_cons, totalOf_cons, ih]
        omega

theorem total_observe (t : Tally) (k : Killmail) : (t.observe k).total = t.total + 1 :=
  totalOf_addOn k.time.date k t.days

theorem total_foldr_observe (t : Tally) (ks : List Killmail) :
    (ks.foldr (fun k t => t.observe k) t).total = t.total + ks.length := by
  induction ks with
  | nil => rfl
  | cons k ks ih =>
    rw [List.foldr_cons, total_observe, ih, List.length_cons]
    omega

/-! ## By day -/

open Calendar

/-- Each day is there once, in order. -/
def Sorted (t : Tally) : Prop := t.days.Pairwise fun a b => a.1 < b.1

/-- A killmail changes the counts of its day, or makes them. -/
theorem addOn_eq_alter (d : Date) (k : Killmail) (days : List (Date × DayTally)) :
    addOn d k days = DayTable.alter d (fun old => (old.getD .zero).add k) days := by
  induction days with
  | nil => rfl
  | cons x rest ih =>
    obtain ⟨e, t⟩ := x
    unfold addOn DayTable.alter
    by_cases heq : d = e
    · subst heq
      rw [if_pos rfl, if_pos rfl]
      rfl
    · rw [if_neg heq, if_neg heq, ih]
      rfl

/-- The counts of the day change, and those of the others do not. -/
theorem lookup_addOn {d e : Date} {k : Killmail} {days : List (Date × DayTally)}
    (h : days.Pairwise fun a b => a.1 < b.1) : ((addOn d k days).lookup e).getD .zero =
      if d = e then ((days.lookup e).getD .zero).add k else (days.lookup e).getD .zero := by
  rw [addOn_eq_alter, DayTable.lookup_alter h]
  by_cases hde : d = e
  · subst hde
    rw [if_pos rfl, if_pos rfl, Option.getD_some]
  · rw [if_neg hde, if_neg hde]

theorem sorted_observe {t : Tally} (h : t.Sorted) (k : Killmail) : (t.observe k).Sorted := by
  rw [Sorted, observe, addOn_eq_alter]
  exact DayTable.InOrder.alter h

theorem day_observe {t : Tally} (h : t.Sorted) (k : Killmail) (d : Date) :
    (t.observe k).day d = if k.time.date = d then (t.day d).add k else t.day d :=
  lookup_addOn h

theorem sorted_foldr_observe (ks : List Killmail) :
    (ks.foldr (fun k t => t.observe k) empty).Sorted := by
  induction ks with
  | nil => exact .nil
  | cons k ks ih => exact sorted_observe ih k

/-- A day is given the counts of its killmails. -/
theorem day_foldr_observe (ks : List Killmail) (d : Date) :
    (ks.foldr (fun k t => t.observe k) empty).day d =
      { total := ks.countP fun k => k.time.date = d
        npc := ks.countP fun k => k.time.date = d && k.npc
        solo := ks.countP fun k => k.time.date = d && k.solo } := by
  induction ks with
  | nil => rfl
  | cons k ks ih =>
    rw [List.foldr_cons, day_observe (sorted_foldr_observe ks), ih]
    by_cases hd : k.time.date = d
    · cases hnpc : k.npc <;> cases hsolo : k.solo <;>
        simp [DayTally.add, hd, hnpc, hsolo]
    · simp [hd]

end Tally

end Harvest
