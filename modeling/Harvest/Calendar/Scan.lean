import Harvest.Calendar.Date
import Harvest.Power
import Harvest.Text.Blank

/-! # Scanning the fields of dates and times

Calendar texts are read field by field: numbers of bounded width, literal separators, fractions of
a second and offsets from UTC. A scanner returns the rest of the text.
-/

namespace Harvest.Calendar.Scan

open Harvest.Text

/-- Reads a number of at least `least` and at most `most` digits; it must fit a signed word of 64
bits. -/
def number (least most : Nat) (s : List Char) : Option (Int × List Char) :=
  let ds := (s.take most).takeWhile isDigit
  if ds.length < least then none
  else
    let n := ofDigits (ds.filterMap digitValue?)
    if n < twoTo 63 then some (n, s.drop ds.length) else none

/-- Reads a number of any width. -/
def anyNumber (least : Nat) (s : List Char) : Option (Int × List Char) :=
  number least s.length s

/-- Reads a field that blanks may precede. -/
def field (width : Nat) (s : List Char) : Option (Int × List Char) :=
  number 1 width (skipBlanks s)

/-- Reads a year that blanks may precede: up to four digits, or any number after a sign. -/
def year (s : List Char) : Option (Int × List Char) :=
  match skipBlanks s with
  | '-' :: rest => do
    let (n, rest) ← anyNumber 1 rest
    return (-n, rest)
  | '+' :: rest => anyNumber 1 rest
  | rest => number 1 4 rest

/-- Passes over a character that must stand next. -/
def literal (c : Char) (s : List Char) : Option (List Char) :=
  match s with
  | d :: rest => if d = c then some rest else none
  | [] => none

/-- At least one blank. -/
def blanks (s : List Char) : Option (List Char) :=
  match s with
  | c :: _ => if isBlank c then some (skipBlanks s) else none
  | [] => none

/-- A value within bounds, as a natural number. -/
def within (low high : Int) (n : Int) : Option Nat :=
  if low ≤ n ∧ n ≤ high then some n.toNat else none

/-- Nanoseconds of a fraction of a second: nine digits count, further ones are passed over. -/
def fraction (s : List Char) : Option (Nat × List Char) := do
  let ds := (s.take 9).takeWhile isDigit
  if ds.isEmpty then none
  else
    let n := ofDigits (ds.filterMap digitValue?)
    return (n * tenTo (9 - ds.length), (s.drop ds.length).dropWhile isDigit)

/-- Two digits. -/
def twoDigits (s : List Char) : Option (Nat × List Char) :=
  match s with
  | a :: b :: rest => do return ((← digitValue? a) * 10 + (← digitValue? b), rest)
  | _ => none

/-- How an offset from UTC is written. -/
structure OffsetStyle where
  /-- The letter `Z` stands for none. -/
  zulu : Bool
  /-- Colons and blanks may stand between hours and minutes. -/
  separated : Bool
  /-- The mathematical minus sign is accepted. -/
  minusSign : Bool

/-- Reads an offset from UTC in seconds: a sign, two digits of hours and two of minutes. -/
def offset (style : OffsetStyle) (s : List Char) : Option (Int × List Char) := do
  match s with
  | 'Z' :: rest => if style.zulu then some (0, rest) else none
  | 'z' :: rest => if style.zulu then some (0, rest) else none
  | sign :: rest =>
    let negative ←
      if sign = '+' then some false
      else if sign = '-' then some true
      else if sign = '\u2212' ∧ style.minusSign then some true
      else none
    let (hours, rest) ← twoDigits rest
    let rest := if style.separated then rest.dropWhile (fun c => c = ':' || isBlank c) else rest
    let (minutes, rest) ← twoDigits rest
    if minutes < 60 then
      let seconds : Int := hours * 3600 + minutes * 60
      return (if negative then -seconds else seconds, rest)
    else none
  | [] => none

end Harvest.Calendar.Scan
