import Harvest.Calendar.Timestamp

/-! # Times of day

A time of day is a second of the day with nanoseconds, which run past a full second inside a leap
second. It is written `HH:MM` or `HH:MM:SS`.
-/

namespace Harvest.Calendar

open Harvest.Text

/-- Whether seconds and nanoseconds make a time of day. -/
def validTimeOfDay (second nano : Nat) : Bool := second < 86400 && nano < 2000000000

/-- A time of day. -/
structure TimeOfDay where
  second : Nat
  nano : Nat
  valid : validTimeOfDay second nano = true
deriving DecidableEq

namespace TimeOfDay

/-- The time of day of seconds and nanoseconds, if there is one. -/
def of? (second nano : Nat) : Option TimeOfDay :=
  if h : validTimeOfDay second nano = true then some ⟨second, nano, h⟩ else none

instance : LE TimeOfDay :=
  ⟨fun a b => a.second < b.second ∨ a.second = b.second ∧ a.nano ≤ b.nano⟩

instance (a b : TimeOfDay) : Decidable (a ≤ b) :=
  inferInstanceAs (Decidable (a.second < b.second ∨ a.second = b.second ∧ a.nano ≤ b.nano))

def midnight : TimeOfDay := ⟨0, 0, rfl⟩

/-- The time of day of whole hours and minutes, or midnight if there is none. -/
def ofMinutes (hour minute : Nat) : TimeOfDay :=
  ((clockTime? hour minute 0 0).bind fun (second, nano) => of? second nano).getD midnight

/-- Reads `HH:MM`. -/
def ofMinuteChars? (s : List Char) : Option TimeOfDay := do
  let (hour, s) ← Scan.field 2 s
  let s ← Scan.literal ':' s
  let (minute, s) ← Scan.field 2 s
  let (second, nano) ← clockTime? hour minute 0 0
  if s.isEmpty then of? second nano else none

/-- Reads `HH:MM:SS`. -/
def ofSecondChars? (s : List Char) : Option TimeOfDay := do
  let (hour, s) ← Scan.field 2 s
  let s ← Scan.literal ':' s
  let (minute, s) ← Scan.field 2 s
  let s ← Scan.literal ':' s
  let (second, s) ← Scan.field 2 s
  let (second, nano) ← clockTime? hour minute second 0
  if s.isEmpty then of? second nano else none

/-- Reads a time of day, with blanks around it. -/
def ofString? (s : String) : Option TimeOfDay :=
  let cs := trim s.toList
  (ofMinuteChars? cs).orElse fun _ => ofSecondChars? cs

/-- The text `HH:MM:SS`. -/
def text (t : TimeOfDay) : String := String.ofList (clockChars t.second t.nano)

end TimeOfDay

theorem Instant.validTimeOfDay (t : Instant) :
    Calendar.validTimeOfDay t.secondOfDay t.nano = true := by
  have hvalid := t.valid
  simp only [validInstant, Bool.and_eq_true, decide_eq_true_eq] at hvalid
  simp only [Calendar.validTimeOfDay, Bool.and_eq_true, decide_eq_true_eq]
  refine ⟨?_, hvalid.2⟩
  show (t.second % secondsPerDay).toNat < 86400
  unfold secondsPerDay
  omega

/-- The time of day of an instant. -/
def Instant.timeOfDay (t : Instant) : TimeOfDay := ⟨t.secondOfDay, t.nano, t.validTimeOfDay⟩

end Harvest.Calendar
