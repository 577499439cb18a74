import Mathlib.Data.List.Basic
import Harvest.Backfill.Report
import Harvest.Proofs.Calendar.Dates

/-! # The days of a walk

A walk goes over all days between two dates, whichever of them is the earlier, each once and in the
order of its direction. Only the last day of the calendar is out of reach.

## Main statements

* `Request.mem_dates`: which days are walked.
* `Request.pairwise_dates`: in which order.
-/

namespace Harvest.Backfill

open Harvest.Calendar

variable {low high d e : Date}

theorem isSome_succ? (hde : d.dayNumber < e.dayNumber) : d.succ?.isSome = true := by
  have hmin := d.dayNumber_bounds.1
  have hmax := e.dayNumber_bounds.2
  obtain ⟨next, hnext, -⟩ := Date.exists_date (n := d.dayNumber + 1) (by omega) (by omega)
  rw [Date.succ?, hnext]
  rfl

/-- The days are numbered by their places. -/
theorem dayNumber_of_place {i : Nat} (hi : i < (high.dayNumber - low.dayNumber + 1).toNat)
    (h : (Date.ofDayNumber? (low.dayNumber + i)).filter (fun d => d.succ?.isSome) = some d) :
    d.dayNumber = low.dayNumber + i := by
  have hmin := low.dayNumber_bounds.1
  have hmax := high.dayNumber_bounds.2
  obtain ⟨found, hfound, hnumber⟩ :=
    Date.exists_date (n := low.dayNumber + i) (by omega) (by omega)
  rw [hfound] at h
  obtain ⟨heq, -⟩ := Option.filter_eq_some_iff.mp h
  cases heq
  exact hnumber

theorem mem_daysBetween (hhigh : high.succ?.isSome = true) :
    d ∈ daysBetween low high ↔ low ≤ d ∧ d ≤ high := by
  show _ ↔ low.dayNumber ≤ d.dayNumber ∧ d.dayNumber ≤ high.dayNumber
  rw [daysBetween, List.mem_filterMap]
  constructor
  · rintro ⟨i, hi, h⟩
    rw [List.mem_range] at hi
    have hnumber := dayNumber_of_place hi h
    omega
  · rintro ⟨hlow, hd⟩
    refine ⟨(d.dayNumber - low.dayNumber).toNat, ?_, ?_⟩
    · rw [List.mem_range]
      omega
    · have hplace : low.dayNumber + ((d.dayNumber - low.dayNumber).toNat : Int) = d.dayNumber := by
        omega
      rw [hplace, Date.ofDayNumber?_dayNumber, Option.filter_some, if_pos]
      -- a day before the last one is followed by a day, and the last one is so by assumption
      rcases Int.lt_or_eq_of_le hd with hlt | heq
      · exact isSome_succ? hlt
      · rw [Date.dayNumber_inj heq]
        exact hhigh

theorem pairwise_daysBetween (low high : Date) : (daysBetween low high).Pairwise (· < ·) := by
  rw [daysBetween, List.pairwise_filterMap]
  refine List.pairwise_lt_range.imp_of_mem ?_
  intro i k hi hk hik d hd e he
  show d.dayNumber < e.dayNumber
  rw [dayNumber_of_place (List.mem_range.mp hi) hd, dayNumber_of_place (List.mem_range.mp hk) he]
  omega

namespace Request

variable {r : Request}

theorem mem_dates (hstart : r.start.succ?.isSome = true) (hstop : r.stop.succ?.isSome = true) :
    d ∈ r.dates ↔ r.start ≤ d ∧ d ≤ r.stop ∨ r.stop ≤ d ∧ d ≤ r.start := by
  have hdays : d ∈ r.dates ↔
      d ∈ if r.start ≤ r.stop then daysBetween r.start r.stop
        else daysBetween r.stop r.start := by
    unfold dates walk
    cases r.direction <;> simp
  rw [hdays]
  split
  · rename_i hle
    rw [mem_daysBetween hstop]
    constructor
    · exact Or.inl
    · rintro (h | ⟨h, h'⟩)
      · exact h
      · exact ⟨Int.le_trans hle h, Int.le_trans h' hle⟩
  · rename_i hlt
    have hle : r.stop ≤ r.start := Int.le_of_lt (Int.not_le.mp hlt)
    rw [mem_daysBetween hstart]
    constructor
    · exact Or.inr
    · rintro (⟨h, h'⟩ | h)
      · exact ⟨Int.le_trans hle h, Int.le_trans h' hle⟩
      · exact h

theorem pairwise_dates (r : Request) : r.dates.Pairwise fun d e =>
    match r.direction with
    | .forward => d < e
    | .backward => e < d := by
  have hdays : (if r.start ≤ r.stop then daysBetween r.start r.stop
      else daysBetween r.stop r.start).Pairwise (· < ·) := by
    split <;> exact pairwise_daysBetween _ _
  unfold dates walk
  cases r.direction with
  | forward => exact hdays
  | backward => exact List.pairwise_reverse.mpr hdays

end Request

end Harvest.Backfill
