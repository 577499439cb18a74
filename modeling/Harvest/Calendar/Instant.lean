import Harvest.Calendar.Date
import Harvest.Power

/-! # Instants and spans

An instant of UTC is a count of seconds from 1970 and a count of nanoseconds into that second. A
leap second is written into the last second of its minute, whose nanoseconds then run on past
`10 ^ 9`. Instants range over the years of `Date`; arithmetic that leaves them has no result.

## Main definitions

* `Instant`: a point of time.
* `Instant.add?`: the instant a span later.
* `Instant.since`: the span between two instants.
-/

namespace Harvest.Calendar

/-- A span of time in nanoseconds. -/
abbrev Span := Int

namespace Span

def ofSeconds (n : Int) : Span := n * 1000000000

def ofMillis (n : Int) : Span := n * 1000000

/-- The longest span that can be written: `2 ^ 63 - 1` milliseconds. -/
def longest : Span := ofMillis ((twoTo 63 : Int) - 1)

/-- The span of a number of seconds, if it can be written. -/
def ofSeconds? (n : Int) : Option Span :=
  if (ofSeconds n).natAbs ≤ longest.natAbs then some (ofSeconds n) else none

end Span

def secondsPerDay : Int := 86400

/-- The first second of the first day and the last one of the last day. -/
def minSecond : Int := -8334601228800

def maxSecond : Int := 8210266876799

/-- Whether seconds and nanoseconds make an instant. -/
def validInstant (second : Int) (nano : Nat) : Bool :=
  minSecond ≤ second && second ≤ maxSecond && nano < 2000000000

/-- A point of time of UTC. -/
structure Instant where
  second : Int
  nano : Nat
  valid : validInstant second nano = true
deriving DecidableEq

namespace Instant

/-- The instant of seconds and nanoseconds, if there is one. -/
def of? (second : Int) (nano : Nat) : Option Instant :=
  if h : validInstant second nano = true then some ⟨second, nano, h⟩ else none

/-- Midnight of 1 January 1970. -/
def epoch : Instant := ⟨0, 0, by decide⟩

instance : Inhabited Instant := ⟨epoch⟩

/-! ## Order -/

instance : LT Instant :=
  ⟨fun a b => a.second < b.second ∨ a.second = b.second ∧ a.nano < b.nano⟩

instance : LE Instant :=
  ⟨fun a b => a.second < b.second ∨ a.second = b.second ∧ a.nano ≤ b.nano⟩

instance (a b : Instant) : Decidable (a < b) :=
  inferInstanceAs (Decidable (a.second < b.second ∨ a.second = b.second ∧ a.nano < b.nano))

instance (a b : Instant) : Decidable (a ≤ b) :=
  inferInstanceAs (Decidable (a.second < b.second ∨ a.second = b.second ∧ a.nano ≤ b.nano))

/-! ## Parts -/

/-- The number of the day. -/
def dayNumber (t : Instant) : Int := t.second / secondsPerDay

/-- Seconds since midnight. -/
def secondOfDay (t : Instant) : Nat := (t.second % secondsPerDay).toNat

/-- The date of UTC on which the instant falls. -/
def date (t : Instant) : Date := (Date.ofDayNumber? t.dayNumber).getD default

/-- The instant of a date, seconds since its midnight, and nanoseconds. -/
def ofDate? (d : Date) (secondOfDay nano : Nat) : Option Instant :=
  of? (d.dayNumber * secondsPerDay + secondOfDay) nano

/-! ## Arithmetic -/

/-- Seconds and nanoseconds with the nanoseconds brought below a full second. -/
def normalize (second : Int) (nano : Int) : Int × Nat :=
  if nano < 0 then (second - 1, (nano + 1000000000).toNat)
  else if 1000000000 ≤ nano then (second + 1, (nano - 1000000000).toNat)
  else (second, nano.toNat)

/-- Where a span leads from a time. A span that stays within a leap second moves inside it; one
that leaves it forward counts the leap second as a repetition of the one before, one that leaves
it backward as a part of the one after. -/
def shift (second : Int) (nano : Nat) (span : Span) : Int × Nat :=
  let whole := span.tdiv 1000000000
  let part := span.tmod 1000000000
  if 1000000000 ≤ nano then
    if 0 < whole ∨ 0 < part ∧ 2000000000 ≤ nano + part then
      normalize (second + whole) (nano - 1000000000 + part)
    else if whole < 0 then normalize (second + 1 + whole) (nano - 1000000000 + part)
    else (second, (nano + part).toNat)
  else normalize (second + whole) (nano + part)

/-- The instant a span later, unless it lies out of range. -/
def add? (t : Instant) (span : Span) : Option Instant :=
  let (second, nano) := shift t.second t.nano span
  of? second nano

/-- The instant a span earlier, unless it lies out of range. -/
def sub? (t : Instant) (span : Span) : Option Instant := t.add? (-span)

/-- The span from `s` to `t`. A leap second between their times of day counts once. -/
def since (t s : Instant) : Span :=
  let leap : Int :=
    if s.secondOfDay < t.secondOfDay ∧ 1000000000 ≤ s.nano then 1
    else if t.secondOfDay < s.secondOfDay ∧ 1000000000 ≤ t.nano then -1
    else 0
  Span.ofSeconds (t.second - s.second + leap) + ((t.nano : Int) - s.nano)

end Instant

end Harvest.Calendar
