import Harvest.Text.Digits

/-! # Dates

A date of the proleptic Gregorian calendar, within the years that instants can name. Dates are
counted by days from 1 January 1970, and written with a four-digit year, or with a signed one
outside the years 0 to 9999.

## Main definitions

* `Date`: a calendar date, valid by construction.
* `Date.dayNumber`, `Date.ofDayNumber?`: the count of days and back.
* `Date.iso`: the text `YYYY-MM-DD`.
-/

namespace Harvest.Calendar

open Harvest.Text

/-- The first and the last year. -/
def minYear : Int := -262143

def maxYear : Int := 262142

/-- A leap year: every fourth, of the hundredth years every fourth. -/
def isLeapYear (y : Int) : Bool :=
  y % 4 == 0 && (y % 100 != 0 || y % 400 == 0)

/-- The number of days of a month. -/
def monthLength (y : Int) (m : Nat) : Nat :=
  if m == 2 then (if isLeapYear y then 29 else 28)
  else if m == 4 || m == 6 || m == 9 || m == 11 then 30
  else 31

/-- Whether a year, a month and a day make a date. -/
def validDate (year : Int) (month day : Nat) : Bool :=
  minYear ≤ year && year ≤ maxYear && 1 ≤ month && month ≤ 12 && 1 ≤ day
    && day ≤ monthLength year month

/-- A date. -/
structure Date where
  year : Int
  month : Nat
  day : Nat
  valid : validDate year month day = true
deriving DecidableEq

namespace Date

/-- The date of a year, a month and a day, if there is one. -/
def of? (year : Int) (month day : Nat) : Option Date :=
  if h : validDate year month day = true then some ⟨year, month, day, h⟩ else none

/-- 1 January 1970. -/
def epoch : Date := ⟨1970, 1, 1, by decide⟩

instance : Inhabited Date := ⟨epoch⟩

/-! ## Counting days -/

/-- Days from 1 January of the year 1 to 1 January of `y`. -/
def daysBeforeYear (y : Int) : Int :=
  365 * (y - 1) + (y - 1) / 4 - (y - 1) / 100 + (y - 1) / 400

/-- Days from 1 January of a year to the first of month `m`. -/
def daysBeforeMonth (y : Int) : Nat → Nat
  | 0 => 0
  | 1 => 0
  | m + 1 => daysBeforeMonth y m + monthLength y m

/-- Days from 1 January of the year 1 to 1 January 1970. -/
def epochOffset : Int := 719162

/-- Days from 1 January 1970. -/
def dayNumber (d : Date) : Int :=
  daysBeforeYear d.year + daysBeforeMonth d.year d.month + (d.day - 1 : Nat) - epochOffset

/-- The year in which day `n`, counted from 1 January of the year 1, falls. The quotient is at
most one year off. -/
def yearOf (n : Int) : Int :=
  let guess := n * 400 / 146097 + 1
  if daysBeforeYear (guess + 1) ≤ n then guess + 1
  else if n < daysBeforeYear guess then guess - 1
  else guess

/-- The month, among the last `k` ones, in which the day of the year falls. -/
def monthOf (y : Int) (dayOfYear : Nat) : Nat → Nat
  | 0 => 1
  | k + 1 => if daysBeforeMonth y (k + 1) ≤ dayOfYear then k + 1 else monthOf y dayOfYear k

/-- The date that lies the given number of days after 1 January 1970. -/
def ofDayNumber? (n : Int) : Option Date :=
  let count := n + epochOffset
  let year := yearOf count
  let dayOfYear := (count - daysBeforeYear year).toNat
  let month := monthOf year dayOfYear 12
  of? year month (dayOfYear - daysBeforeMonth year month + 1)

/-- The day before, if there is one. -/
def pred? (d : Date) : Option Date := ofDayNumber? (d.dayNumber - 1)

/-- The day after, if there is one. -/
def succ? (d : Date) : Option Date := ofDayNumber? (d.dayNumber + 1)

instance : LT Date := ⟨fun a b => a.dayNumber < b.dayNumber⟩

instance : LE Date := ⟨fun a b => a.dayNumber ≤ b.dayNumber⟩

instance (a b : Date) : Decidable (a < b) := inferInstanceAs (Decidable (a.dayNumber < b.dayNumber))

instance (a b : Date) : Decidable (a ≤ b) := inferInstanceAs (Decidable (a.dayNumber ≤ b.dayNumber))

/-- The day of the week, Monday being 0. -/
def weekday (d : Date) : Nat := ((d.dayNumber + 3) % 7).toNat

/-! ## Text -/

/-- A year: four digits from 0 to 9999, else a sign and at least four more. -/
def yearChars (y : Int) : List Char :=
  if 0 ≤ y ∧ y ≤ 9999 then padded 4 y.toNat
  else (if y < 0 then '-' else '+') :: padded 4 y.natAbs

/-- The text `YYYY-MM-DD`. -/
def isoChars (d : Date) : List Char :=
  yearChars d.year ++ '-' :: padded 2 d.month ++ '-' :: padded 2 d.day

/-- The text `YYYY-MM-DD`. -/
def iso (d : Date) : String := String.ofList d.isoChars

instance : ToString Date := ⟨iso⟩

end Date

end Harvest.Calendar
