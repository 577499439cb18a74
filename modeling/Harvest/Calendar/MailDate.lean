import Harvest.Calendar.Timestamp

/-! # Dates of message headers

Header fields such as `Expires` hold dates of the form `Mon, 01 Jan 2024 12:30:00 GMT`. The
weekday may be left out but must agree with the date; years of two and three digits are
abbreviations; zones may be named; comments in parentheses may follow.
-/

namespace Harvest.Calendar.MailDate

open Harvest.Text

def weekdayNames : List (List Char) :=
  [['m', 'o', 'n'], ['t', 'u', 'e'], ['w', 'e', 'd'], ['t', 'h', 'u'], ['f', 'r', 'i'],
    ['s', 'a', 't'], ['s', 'u', 'n']]

def monthNames : List (List Char) :=
  [['j', 'a', 'n'], ['f', 'e', 'b'], ['m', 'a', 'r'], ['a', 'p', 'r'], ['m', 'a', 'y'],
    ['j', 'u', 'n'], ['j', 'u', 'l'], ['a', 'u', 'g'], ['s', 'e', 'p'], ['o', 'c', 't'],
    ['n', 'o', 'v'], ['d', 'e', 'c']]

/-- The position of the name of three letters that stands next, in either case. -/
def name (names : List (List Char)) (s : List Char) : Option (Nat × List Char) :=
  let word := (s.take 3).map Char.toLower
  let i := names.findIdx (· = word)
  if i < names.length then some (i, s.drop 3) else none

/-- A weekday with its comma. A name without a comma is an error, no name is none. -/
def weekday (s : List Char) : Option (Option Nat × List Char) :=
  match name weekdayNames s with
  | some (w, ',' :: rest) => some (some w, rest)
  | some _ => none
  | none => some (none, s)

/-- The year that digits of the given number abbreviate. -/
def fullYear (digits : Nat) (year : Int) : Int :=
  if digits = 2 then (if year ≤ 49 then year + 2000 else year + 1900)
  else if digits = 3 then year + 1900
  else year

/-- Hours east of UTC of a named zone. -/
def zoneHours? (letters : List Char) : Option Int :=
  match letters.map Char.toLower with
  | ['g', 'm', 't'] => some 0
  | ['u', 't'] => some 0
  | ['e', 'd', 't'] => some (-4)
  | ['e', 's', 't'] => some (-5)
  | ['c', 'd', 't'] => some (-5)
  | ['c', 's', 't'] => some (-6)
  | ['m', 'd', 't'] => some (-6)
  | ['m', 's', 't'] => some (-7)
  | ['p', 'd', 't'] => some (-7)
  | ['p', 's', 't'] => some (-8)
  | [c] => if c = 'j' then none else some 0
  | _ => none

/-- A zone in seconds east of UTC: a name, or a sign and four digits. -/
def zone (s : List Char) : Option (Int × List Char) :=
  let letters := s.takeWhile Char.isAlpha
  if letters.isEmpty then
    Scan.offset { zulu := false, separated := false, minusSign := false } s
  else (zoneHours? letters).map fun h => (h * 3600, s.drop letters.length)

/-- Passes over a comment whose opening parenthesis has been read; `depth` more are open inside
it. A backslash takes the next character with it. -/
def closeComment : Nat → List Char → Option (List Char)
  | _, [] => none
  | _, ['\\'] => none
  | depth, '\\' :: _ :: rest => closeComment depth rest
  | depth, '(' :: rest => closeComment (depth + 1) rest
  | 0, ')' :: rest => some rest
  | depth + 1, ')' :: rest => closeComment depth rest
  | depth, _ :: rest => closeComment depth rest

theorem length_closeComment_le {depth : Nat} {s rest : List Char}
    (h : closeComment depth s = some rest) : rest.length < s.length := by
  fun_induction closeComment depth s <;> simp_all <;> omega

/-- Passes over comments with blanks before them. -/
def skipComments (s : List Char) : List Char :=
  match _hs : skipBlanks s with
  | '(' :: inner =>
    match _hc : closeComment 0 inner with
    | some rest => skipComments rest
    | none => s
  | _ => s
termination_by s.length
decreasing_by
  have h₁ := length_closeComment_le _hc
  have h₂ : (skipBlanks s).length ≤ s.length := List.Sublist.length_le (List.dropWhile_sublist _)
  rw [_hs] at h₂
  simp at h₂
  omega

/-- Reads a date. -/
def read? (s : List Char) : Option Instant := do
  let (day?, s) ← weekday (skipBlanks s)
  let (day, s) ← Scan.number 1 2 (skipBlanks s)
  let s ← Scan.blanks s
  let (month, s) ← name monthNames s
  let s ← Scan.blanks s
  let (year, rest) ← Scan.anyNumber 2 s
  let year := fullYear (s.length - rest.length) year
  let s ← Scan.blanks rest
  let (hour, s) ← Scan.number 2 2 s
  let s ← Scan.literal ':' (skipBlanks s)
  let (minute, s) ← Scan.number 2 2 (skipBlanks s)
  let (second, s) ← match skipBlanks s with
    | ':' :: rest => Scan.number 2 2 rest
    | _ => some (0, s)
  let s ← Scan.blanks s
  let (offset, s) ← zone s
  if (skipComments s).isEmpty then
    let fields : Fields :=
      { year, month := month + 1, day, hour, minute, second, nano := 0, offset }
    let date ← fields.date?
    if day?.all (· = date.weekday) then fields.instant? else none
  else none

end Harvest.Calendar.MailDate
