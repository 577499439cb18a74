import Harvest.Calendar.Instant
import Harvest.Calendar.Scan

/-! # The text of instants

Instants are written as `YYYY-MM-DDTHH:MM:SSZ`, with three, six or nine digits of a fraction when
there is one, and with second 60 inside a leap second. They are read more liberally: a blank or a
small `t` may separate date and time, blanks may precede most fields, and any offset from UTC of
less than a day may be given.
-/

namespace Harvest.Calendar

open Harvest.Text

/-! ## Fields to an instant -/

/-- The fields of a local date and time. -/
structure Fields where
  year : Int
  month : Int
  day : Int
  hour : Int
  minute : Int
  second : Int
  nano : Nat
  /-- Seconds east of UTC. -/
  offset : Int

/-- Seconds since midnight and nanoseconds; second 60 runs into the nanoseconds of second 59. -/
def clockTime? (hour minute second : Int) (nano : Nat) : Option (Nat × Nat) := do
  let h ← Scan.within 0 23 hour
  let m ← Scan.within 0 59 minute
  let s ← Scan.within 0 60 second
  if s = 60 then some (h * 3600 + m * 60 + 59, nano + 1000000000)
  else some (h * 3600 + m * 60 + s, nano)

/-- The date that the fields name. -/
def Fields.date? (f : Fields) : Option Date := do
  Date.of? f.year (← Scan.within 1 12 f.month) (← Scan.within 1 31 f.day)

/-- The instant that the fields name. -/
def Fields.instant? (f : Fields) : Option Instant := do
  let date ← f.date?
  let (second, nano) ← clockTime? f.hour f.minute f.second f.nano
  if f.offset.natAbs < 86400 then
    Instant.of? (date.dayNumber * secondsPerDay + second - f.offset) nano
  else none

/-! ## Reading -/

/-- Reads the date fields. -/
def scanDate (s : List Char) : Option ((Int × Int × Int) × List Char) := do
  let (y, s) ← Scan.year s
  let s ← Scan.literal '-' (skipBlanks s)
  let (m, s) ← Scan.field 2 s
  let s ← Scan.literal '-' (skipBlanks s)
  let (d, s) ← Scan.field 2 s
  return ((y, m, d), s)

/-- Reads the time fields. -/
def scanTime (s : List Char) : Option ((Int × Int × Int × Nat) × List Char) := do
  let (h, s) ← Scan.field 2 s
  let s ← Scan.literal ':' (skipBlanks s)
  let (m, s) ← Scan.field 2 s
  let s ← Scan.literal ':' (skipBlanks s)
  let (sec, s) ← Scan.field 2 s
  match s with
  | '.' :: rest =>
    let (nano, rest) ← Scan.fraction rest
    return ((h, m, sec, nano), rest)
  | _ => return ((h, m, sec, 0), s)

/-- Reads the offset from UTC: its name, the letter `Z`, or hours and minutes. -/
def scanZone (s : List Char) : Option (Int × List Char) :=
  let s := skipBlanks s
  if (s.take 3).map Char.toLower = ['u', 't', 'c'] then some (0, s.drop 3)
  else Scan.offset { zulu := true, separated := true, minusSign := true } s

/-- Reads an instant. -/
def Instant.ofChars? (s : List Char) : Option Instant := do
  let ((year, month, day), s) ← scanDate s
  let s ← match s with
    | c :: rest => if c = 't' ∨ c = 'T' ∨ c = ' ' then some rest else none
    | [] => none
  let ((hour, minute, second, nano), s) ← scanTime s
  let (offset, s) ← scanZone s
  if (skipBlanks s).isEmpty then
    Fields.instant? { year, month, day, hour, minute, second, nano, offset }
  else none

/-- Reads an instant. -/
def Instant.ofString? (s : String) : Option Instant := Instant.ofChars? s.toList

/-- Reads a date written `YYYY-MM-DD`. -/
def Date.ofString? (s : String) : Option Date := do
  let ((year, month, day), rest) ← scanDate s.toList
  if (skipBlanks rest).isEmpty then
    Date.of? year (← Scan.within 1 12 month) (← Scan.within 1 31 day)
  else none

/-! ## Writing -/

/-- The time of day, hours to seconds; nanoseconds beyond a full second count into the seconds. -/
def clockChars (secondOfDay nano : Nat) : List Char :=
  let s := secondOfDay % 60 + nano / 1000000000
  padded 2 (secondOfDay / 3600) ++ ':' :: padded 2 (secondOfDay / 60 % 60) ++ ':' :: padded 2 s

/-- A fraction of a second in the fewest groups of three digits that are exact. -/
def fractionChars (nano : Nat) : List Char :=
  let n := nano % 1000000000
  if n = 0 then []
  else if n % 1000000 = 0 then '.' :: padded 3 (n / 1000000)
  else if n % 1000 = 0 then '.' :: padded 6 (n / 1000)
  else '.' :: padded 9 n

/-- The text of an instant. -/
def Instant.isoChars (t : Instant) : List Char :=
  t.date.isoChars ++ 'T' :: clockChars t.secondOfDay t.nano ++ fractionChars t.nano ++ ['Z']

/-- The text of an instant. -/
def Instant.iso (t : Instant) : String := String.ofList t.isoChars

instance : ToString Instant := ⟨Instant.iso⟩

end Harvest.Calendar
