import Harvest.Calendar.Scan
import Harvest.Calendar.Instant

/-! # Day keys and day ranges

A day is named by the key `YYYYMMDD`, in directories and in the addresses of daily listings, and
it stands for the instants from its midnight to its last whole second.
-/

namespace Harvest.Calendar

open Harvest.Text

/-! ## Keys -/

/-- The key of a date: `YYYYMMDD`, the year signed outside 0 to 9999. -/
def Date.keyChars (d : Date) : List Char :=
  Date.yearChars d.year ++ padded 2 d.month ++ padded 2 d.day

/-- The key of a date. -/
def Date.key (d : Date) : String := String.ofList d.keyChars

/-- Reads a key. Blanks may precede each field, and the fields may be shorter than their width. -/
def Date.ofKeyChars? (s : List Char) : Option Date := do
  let (year, s) ← Scan.year s
  let (month, s) ← Scan.field 2 s
  let (day, s) ← Scan.field 2 s
  if s.isEmpty then Date.of? year (← Scan.within 1 12 month) (← Scan.within 1 31 day) else none

/-- Reads a key. -/
def Date.ofKey? (s : String) : Option Date := Date.ofKeyChars? s.toList

/-! ## Ranges -/

/-- The instants from `start` to `stop`, both included. -/
structure Range where
  start : Instant
  stop : Instant
deriving DecidableEq

namespace Range

def contains (r : Range) (t : Instant) : Bool :=
  decide (r.start ≤ t) && decide (t ≤ r.stop)

/-- From midnight to the last second of a day. -/
def day (d : Date) : Range :=
  { start := (Instant.ofDate? d 0 0).getD default
    stop := (Instant.ofDate? d 86399 0).getD default }

end Range

end Harvest.Calendar
