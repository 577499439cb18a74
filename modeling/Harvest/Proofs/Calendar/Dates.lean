import Harvest.Calendar.DayKey
import Harvest.Proofs.Calendar.Instants
import Harvest.Proofs.Text.Digits

/-! # Days and dates

Days are counted from 1 January 1970. Each date has its number, each number within range its date,
and an instant falls on the date that has the number of its day.

## Main statements

* `Date.ofDayNumber?_dayNumber`: the date of the number of a date.
* `Date.exists_date`: every number within range is that of a date.
* `Instant.date_eq_iff`: the instants of a date.
* `Date.key_inj`: dates are told from their keys.
* `Range.seconds_day_iff`, `Range.contains_day_iff`: the range of a date, by whole seconds and to
  the nanosecond.
-/

namespace Harvest.Calendar

open Harvest.Text

namespace Date

/-! ## Years -/

/-- The number of days of a year. -/
def yearLength (y : Int) : Nat := if isLeapYear y then 366 else 365

theorem isLeapYear_iff {y : Int} :
    isLeapYear y = true ↔ y % 4 = 0 ∧ (y % 100 ≠ 0 ∨ y % 400 = 0) := by
  simp [isLeapYear]

theorem daysBeforeYear_succ (y : Int) :
    daysBeforeYear (y + 1) = daysBeforeYear y + yearLength y := by
  unfold daysBeforeYear yearLength
  by_cases h : isLeapYear y = true
  · rw [if_pos h]
    rw [isLeapYear_iff] at h
    omega
  · rw [if_neg h]
    rw [isLeapYear_iff] at h
    omega

theorem daysBeforeYear_mono {y z : Int} (h : y ≤ z) : daysBeforeYear y ≤ daysBeforeYear z := by
  unfold daysBeforeYear
  omega

/-- The year of a day begins on that day or before, and the next one after it. -/
theorem yearOf_bounds (n : Int) :
    daysBeforeYear (yearOf n) ≤ n ∧ n < daysBeforeYear (yearOf n + 1) := by
  -- 400 years have 146097 days, so the quotient is at most one year off
  have hlow : daysBeforeYear (n * 400 / 146097 + 1 - 1) ≤ n := by
    unfold daysBeforeYear
    omega
  have hhigh : n < daysBeforeYear (n * 400 / 146097 + 1 + 1 + 1) := by
    unfold daysBeforeYear
    omega
  simp only [yearOf]
  split
  · exact ⟨‹_›, hhigh⟩
  · split
    · rw [Int.sub_add_cancel]
      exact ⟨hlow, ‹_›⟩
    · omega

theorem yearOf_eq {n y : Int} (hlow : daysBeforeYear y ≤ n) (hhigh : n < daysBeforeYear (y + 1)) :
    yearOf n = y := by
  obtain ⟨hlow', hhigh'⟩ := yearOf_bounds n
  -- years that lie apart share no day
  by_cases hlt : yearOf n < y
  · have := daysBeforeYear_mono (show yearOf n + 1 ≤ y from hlt)
    omega
  · by_cases hgt : y < yearOf n
    · have := daysBeforeYear_mono (show y + 1 ≤ yearOf n from hgt)
      omega
    · omega

/-! ## Months -/

theorem daysBeforeMonth_succ (y : Int) {m : Nat} (h : 1 ≤ m) :
    daysBeforeMonth y (m + 1) = daysBeforeMonth y m + monthLength y m := by
  cases m with
  | zero => cases h
  | succ m => rfl

theorem daysBeforeMonth_mono (y : Int) {m k : Nat} (h : m ≤ k) :
    daysBeforeMonth y m ≤ daysBeforeMonth y k := by
  induction h with
  | refl => exact Nat.le_refl _
  | @step k _ ih =>
    cases k with
    | zero => exact ih
    | succ k => exact Nat.le_trans ih (Nat.le_add_right _ _)

/-- Twelve months make a year. -/
theorem daysBeforeMonth_thirteen (y : Int) : daysBeforeMonth y 13 = yearLength y := by
  cases h : isLeapYear y <;> simp [daysBeforeMonth, monthLength, yearLength, h]

/-- The month of a day begins on that day or before, and the next one after it. -/
theorem monthOf_bounds {y : Int} {day k : Nat} (h : day < daysBeforeMonth y (k + 1)) :
    1 ≤ monthOf y day k ∧ monthOf y day k ≤ k ∧
      daysBeforeMonth y (monthOf y day k) ≤ day ∧
      day < daysBeforeMonth y (monthOf y day k + 1) := by
  induction k with
  | zero => cases h
  | succ k ih =>
    rw [monthOf]
    split
    · rename_i hle
      exact ⟨Nat.le_add_left 1 k, Nat.le_refl _, hle, h⟩
    · rename_i hlt
      obtain ⟨hone, hle, hlow, hhigh⟩ := ih (Nat.not_le.mp hlt)
      exact ⟨hone, Nat.le_succ_of_le hle, hlow, hhigh⟩

theorem month_unique {y : Int} {day m k : Nat} (hlow : daysBeforeMonth y m ≤ day)
    (hhigh : day < daysBeforeMonth y (m + 1)) (hlow' : daysBeforeMonth y k ≤ day)
    (hhigh' : day < daysBeforeMonth y (k + 1)) : m = k := by
  by_cases hlt : m < k
  · have := daysBeforeMonth_mono y (show m + 1 ≤ k from hlt)
    omega
  · by_cases hgt : k < m
    · have := daysBeforeMonth_mono y (show k + 1 ≤ m from hgt)
      omega
    · omega

/-! ## Dates -/

theorem monthLength_le (y : Int) (m : Nat) : monthLength y m ≤ 31 := by
  unfold monthLength
  split
  · split <;> decide
  · split <;> decide

/-- The parts of a date are within their bounds. -/
theorem bounds (d : Date) : minYear ≤ d.year ∧ d.year ≤ maxYear ∧ 1 ≤ d.month ∧ d.month ≤ 12 ∧
    1 ≤ d.day ∧ d.day ≤ monthLength d.year d.month := by
  simpa [validDate, and_assoc] using d.valid

/-- The day of the year, counted from zero. -/
def dayOfYear (d : Date) : Nat := daysBeforeMonth d.year d.month + (d.day - 1)

theorem dayOfYear_lt (d : Date) : d.dayOfYear < daysBeforeMonth d.year (d.month + 1) := by
  obtain ⟨-, -, hmonth, -, hday, hlength⟩ := d.bounds
  rw [daysBeforeMonth_succ d.year hmonth, dayOfYear]
  omega

theorem dayOfYear_lt_yearLength (d : Date) : d.dayOfYear < yearLength d.year := by
  obtain ⟨-, -, -, hmonth, -, -⟩ := d.bounds
  rw [← daysBeforeMonth_thirteen]
  exact Nat.lt_of_lt_of_le d.dayOfYear_lt (daysBeforeMonth_mono _ (Nat.succ_le_succ hmonth))

theorem dayNumber_eq (d : Date) :
    d.dayNumber + epochOffset = daysBeforeYear d.year + d.dayOfYear := by
  unfold dayNumber dayOfYear
  omega

/-- The date of the number of a date. -/
theorem ofDayNumber?_dayNumber (d : Date) : ofDayNumber? d.dayNumber = some d := by
  have hlt := d.dayOfYear_lt_yearLength
  have hyear : yearOf (d.dayNumber + epochOffset) = d.year := by
    rw [dayNumber_eq]
    apply yearOf_eq
    · omega
    · rw [daysBeforeYear_succ]
      omega
  have hday : (d.dayNumber + epochOffset - daysBeforeYear d.year).toNat = d.dayOfYear := by
    rw [dayNumber_eq]
    omega
  have hmonth : monthOf d.year d.dayOfYear 12 = d.month := by
    obtain ⟨-, -, hlow, hhigh⟩ :=
      monthOf_bounds (k := 12) (daysBeforeMonth_thirteen d.year ▸ hlt)
    exact month_unique hlow hhigh (Nat.le_add_right _ _) d.dayOfYear_lt
  have hdom : d.dayOfYear - daysBeforeMonth d.year d.month + 1 = d.day := by
    obtain ⟨-, -, -, -, hday, -⟩ := d.bounds
    unfold dayOfYear
    omega
  simp only [ofDayNumber?, hyear, hday, hmonth, hdom, of?, dif_pos d.valid]

theorem dayNumber_inj {d e : Date} (h : d.dayNumber = e.dayNumber) : d = e := by
  have heq := ofDayNumber?_dayNumber d
  rw [h, ofDayNumber?_dayNumber e] at heq
  exact (Option.some.inj heq).symm

/-! ## The range of the numbers -/

/-- The numbers of the first and of the last date. -/
def minDay : Int := -96465292

def maxDay : Int := 95026236

theorem dayNumber_bounds (d : Date) : minDay ≤ d.dayNumber ∧ d.dayNumber ≤ maxDay := by
  obtain ⟨hmin, hmax, -, -, -, -⟩ := d.bounds
  have hlt := d.dayOfYear_lt_yearLength
  have hnumber := d.dayNumber_eq
  have hlow := daysBeforeYear_mono hmin
  have hhigh := daysBeforeYear_mono (show d.year + 1 ≤ maxYear + 1 by omega)
  rw [daysBeforeYear_succ] at hhigh
  simp only [show daysBeforeYear minYear = -95746130 by decide] at hlow
  simp only [show daysBeforeYear (maxYear + 1) = 95745399 by decide] at hhigh
  unfold minDay maxDay epochOffset at *
  omega

/-- Every number within range is that of a date. -/
theorem exists_date {n : Int} (hmin : minDay ≤ n) (hmax : n ≤ maxDay) :
    ∃ d, ofDayNumber? n = some d ∧ d.dayNumber = n := by
  have hfirst : daysBeforeYear minYear = -95746130 := by decide
  have hlast : daysBeforeYear (maxYear + 1) = 95745399 := by decide
  obtain ⟨hlow, hhigh⟩ := yearOf_bounds (n + epochOffset)
  generalize hy : yearOf (n + epochOffset) = y at hlow hhigh
  unfold minDay at hmin
  unfold maxDay at hmax
  unfold epochOffset at hlow hhigh hy
  -- a day within range falls in a year within range
  have hminYear : minYear ≤ y := by
    by_cases hlt : y < minYear
    · have := daysBeforeYear_mono (show y + 1 ≤ minYear from hlt)
      omega
    · omega
  have hmaxYear : y ≤ maxYear := by
    by_cases hlt : maxYear < y
    · have := daysBeforeYear_mono (show maxYear + 1 ≤ y from hlt)
      omega
    · omega
  rw [daysBeforeYear_succ] at hhigh
  obtain ⟨day, hday⟩ : ∃ day : Nat, n + 719162 - daysBeforeYear y = day :=
    ⟨(n + 719162 - daysBeforeYear y).toNat, by omega⟩
  have hlength : day < daysBeforeMonth y (12 + 1) := by
    rw [daysBeforeMonth_thirteen]
    omega
  obtain ⟨hone, htwelve, hlow', hhigh'⟩ := monthOf_bounds hlength
  rw [daysBeforeMonth_succ y hone] at hhigh'
  have hvalid : validDate y (monthOf y day 12)
      (day - daysBeforeMonth y (monthOf y day 12) + 1) = true := by
    simp only [validDate, Bool.and_eq_true, decide_eq_true_eq]
    omega
  refine ⟨⟨y, monthOf y day 12, day - daysBeforeMonth y (monthOf y day 12) + 1, hvalid⟩, ?_, ?_⟩
  · simp only [ofDayNumber?, epochOffset, hy, hday, Int.toNat_natCast, of?, dif_pos hvalid]
  · simp only [dayNumber, epochOffset]
    omega

/-! ## Keys -/

theorem yearChars_inj {y z : Int} (h : yearChars y = yearChars z) : y = z := by
  have hplus : ∀ n : Nat, '+' ∉ padded 4 n := fun n => not_mem_padded (by decide)
  have hminus : ∀ n : Nat, '-' ∉ padded 4 n := fun n => not_mem_padded (by decide)
  -- a year has a sign if it is out of the range of four digits
  have hsign : ∀ (x : Int) (n : Nat), (if x < 0 then '-' else '+') ∉ padded 4 n := by
    intro x n
    split
    · exact hminus n
    · exact hplus n
  unfold yearChars at h
  by_cases hy : 0 ≤ y ∧ y ≤ 9999 <;> by_cases hz : 0 ≤ z ∧ z ≤ 9999
  · rw [if_pos hy, if_pos hz] at h
    have := padded_inj h
    omega
  · rw [if_pos hy, if_neg hz] at h
    exact absurd (h ▸ List.mem_cons_self) (hsign z _)
  · rw [if_neg hy, if_pos hz] at h
    exact absurd (h ▸ List.mem_cons_self) (hsign y _)
  · rw [if_neg hy, if_neg hz] at h
    obtain ⟨hhead, htail⟩ := List.cons.inj h
    have habs := padded_inj htail
    by_cases hneg : y < 0 <;> by_cases hneg' : z < 0
    · omega
    · rw [if_pos hneg, if_neg hneg'] at hhead
      exact absurd hhead (by decide)
    · rw [if_neg hneg, if_pos hneg'] at hhead
      exact absurd hhead (by decide)
    · omega

theorem eq_of_parts {d e : Date} (hyear : d.year = e.year) (hmonth : d.month = e.month)
    (hday : d.day = e.day) : d = e := by
  obtain ⟨year, month, day, _⟩ := d
  obtain ⟨year', month', day', _⟩ := e
  simp only at hyear hmonth hday
  subst hyear hmonth hday
  rfl

/-- Dates are told from their keys: the month and the day take the last four characters. -/
theorem key_inj {d e : Date} (h : d.key = e.key) : d = e := by
  have hwidth : ∀ d : Date, (padded 2 d.month).length = 2 ∧ (padded 2 d.day).length = 2 := by
    intro d
    obtain ⟨-, -, -, hmonth, -, hday⟩ := d.bounds
    have hlength := monthLength_le d.year d.month
    have htwo : tenTo 2 = 100 := rfl
    exact ⟨length_padded (by decide) (by omega), length_padded (by decide) (by omega)⟩
  have hchars : d.keyChars = e.keyChars := String.ofList_injective h
  unfold keyChars at hchars
  obtain ⟨hfront, hday⟩ := List.append_inj' hchars ((hwidth d).2.trans (hwidth e).2.symm)
  obtain ⟨hyear, hmonth⟩ := List.append_inj' hfront ((hwidth d).1.trans (hwidth e).1.symm)
  exact eq_of_parts (yearChars_inj hyear) (padded_inj hmonth) (padded_inj hday)

/-- A key is made of digits and a sign. -/
theorem not_mem_keyChars {c : Char} (hdigit : digitValue? c = none) (hplus : c ≠ '+')
    (hminus : c ≠ '-') (d : Date) : c ∉ d.keyChars := by
  have hyear : c ∉ yearChars d.year := by
    unfold yearChars
    split
    · exact not_mem_padded hdigit
    · rw [List.mem_cons]
      refine not_or.mpr ⟨?_, not_mem_padded hdigit⟩
      split
      · exact hminus
      · exact hplus
  unfold keyChars
  rw [List.mem_append, List.mem_append]
  exact not_or.mpr ⟨not_or.mpr ⟨hyear, not_mem_padded hdigit⟩, not_mem_padded hdigit⟩

/-- The year takes a sign and six digits at most. -/
theorem length_keyChars_le (d : Date) : d.keyChars.length ≤ 11 := by
  obtain ⟨hmin, hmax, -, hmonth, -, hday⟩ := d.bounds
  have hlength := monthLength_le d.year d.month
  have htwo : tenTo (1 + 1) = 100 := rfl
  have hsix : tenTo (5 + 1) = 1000000 := rfl
  unfold minYear at hmin
  unfold maxYear at hmax
  have hyear : (yearChars d.year).length ≤ 7 := by
    have hwidth : ∀ n, n < tenTo (5 + 1) → (padded 4 n).length ≤ 6 := fun n hn =>
      length_padded_le hn (by decide)
    unfold yearChars
    split
    · exact Nat.le_succ_of_le (hwidth _ (by omega))
    · exact Nat.succ_le_succ (hwidth _ (by omega))
  have hmonths : (padded 2 d.month).length ≤ 2 := length_padded_le (by omega) (Nat.le_refl 2)
  have hdays : (padded 2 d.day).length ≤ 2 := length_padded_le (by omega) (Nat.le_refl 2)
  unfold keyChars
  rw [List.length_append, List.length_append]
  omega

end Date

namespace Instant

/-- An instant falls on the date that has the number of its day. -/
theorem dayNumber_date (t : Instant) : t.date.dayNumber = t.dayNumber := by
  obtain ⟨hmin, hmax⟩ := t.second_bounds
  unfold minSecond at hmin
  unfold maxSecond at hmax
  obtain ⟨d, hd, hnumber⟩ := Date.exists_date (n := t.dayNumber)
    (by unfold dayNumber secondsPerDay Date.minDay; omega)
    (by unfold dayNumber secondsPerDay Date.maxDay; omega)
  rw [date, hd]
  exact hnumber

theorem date_eq_iff {t : Instant} {d : Date} : t.date = d ↔ t.dayNumber = d.dayNumber := by
  rw [← dayNumber_date]
  exact ⟨congrArg Date.dayNumber, Date.dayNumber_inj⟩

/-- Every second of a date is an instant. -/
theorem getD_ofDate? (d : Date) {n : Nat} (hn : n < 86400) :
    ((ofDate? d n 0).getD default).second = d.dayNumber * 86400 + n ∧
      ((ofDate? d n 0).getD default).nano = 0 := by
  obtain ⟨hmin, hmax⟩ := d.dayNumber_bounds
  unfold Date.minDay at hmin
  unfold Date.maxDay at hmax
  have hvalid : validInstant (d.dayNumber * secondsPerDay + n) 0 = true := by
    simp only [validInstant, Bool.and_eq_true, decide_eq_true_eq]
    unfold minSecond maxSecond secondsPerDay
    omega
  rw [ofDate?, of?, dif_pos hvalid]
  exact ⟨rfl, rfl⟩

/-- After the last whole second of its day: in its last second, or in a leap second after that. -/
def IsLate (t : Instant) : Prop := t.secondOfDay = 86399 ∧ 0 < t.nano

instance (t : Instant) : Decidable t.IsLate := inferInstanceAs (Decidable (_ ∧ _))

end Instant

/-! ## The range of a date -/

namespace Range

variable {d : Date} {t : Instant}

theorem start_day (d : Date) :
    (day d).start.second = d.dayNumber * 86400 ∧ (day d).start.nano = 0 := by
  obtain ⟨hsecond, hnano⟩ := Instant.getD_ofDate? d (show 0 < 86400 by decide)
  exact ⟨hsecond.trans (Int.add_zero _), hnano⟩

theorem stop_day (d : Date) :
    (day d).stop.second = d.dayNumber * 86400 + 86399 ∧ (day d).stop.nano = 0 :=
  Instant.getD_ofDate? d (show 86399 < 86400 by decide)

/-- By whole seconds, the range of a date is all that falls on it. -/
theorem seconds_day_iff : (day d).start.second ≤ t.second ∧ t.second ≤ (day d).stop.second ↔
    t.date = d := by
  rw [(start_day d).1, (stop_day d).1, Instant.date_eq_iff, Instant.dayNumber, secondsPerDay]
  omega

/-- To the nanosecond, the range of a date ends with the last whole second. -/
theorem contains_day_iff : (day d).contains t = true ↔ t.date = d ∧ ¬ t.IsLate := by
  have hstart := start_day d
  have hstop := stop_day d
  rw [contains, Bool.and_eq_true, decide_eq_true_eq, decide_eq_true_eq, Instant.le_def,
    Instant.le_def, hstart.1, hstart.2, hstop.1, hstop.2, Instant.date_eq_iff, Instant.IsLate,
    Instant.dayNumber, Instant.secondOfDay, secondsPerDay]
  omega

end Range

end Harvest.Calendar
