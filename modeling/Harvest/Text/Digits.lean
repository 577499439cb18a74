import Harvest.Power

/-! # Decimal digits

Whole numbers as runs of ASCII digits: reading them with and without a sign, within the bounds of
a machine word, and writing them padded to a width.
-/

namespace Harvest.Text

/-- The value of an ASCII digit. -/
def digitValue? (c : Char) : Option Nat :=
  if '0' ≤ c ∧ c ≤ '9' then some (c.toNat - '0'.toNat) else none

/-- An ASCII digit. -/
def isDigit (c : Char) : Bool :=
  (digitValue? c).isSome

/-- The ASCII digit of a value below ten. -/
def digitChar (n : Nat) : Char :=
  Char.ofNat ('0'.toNat + n % 10)

/-- The number that a list of digit values spells, most significant first. -/
def ofDigits (ds : List Nat) : Nat :=
  ds.foldl (fun n d => n * 10 + d) 0

/-- Reads a non-empty text of digits only. -/
def readNat? (s : List Char) : Option Nat :=
  if s.isEmpty then none else (s.mapM digitValue?).map ofDigits

/-- Reads digits with an optional plus sign, at most `2 ^ 64 - 1`. -/
def readUInt64? (s : List Char) : Option UInt64 :=
  let digits := match s with
    | '+' :: rest => rest
    | _ => s
  match readNat? digits with
  | some n => if n < twoTo 64 then some (UInt64.ofNat n) else none
  | none => none

/-- Reads digits with an optional sign, within the range of a signed word of 64 bits. -/
def readInt64? (s : List Char) : Option Int :=
  match s with
  | '-' :: rest =>
    match readNat? rest with
    | some n => if n ≤ twoTo 63 then some (-(n : Int)) else none
    | none => none
  | _ =>
    let digits := match s with
      | '+' :: rest => rest
      | _ => s
    match readNat? digits with
    | some n => if n < twoTo 63 then some (n : Int) else none
    | none => none

/-- The digits of a number, most significant first. -/
def natDigits (n : Nat) : List Char :=
  if n < 10 then [digitChar n] else natDigits (n / 10) ++ [digitChar n]
termination_by n

/-- The digit of a value below sixteen. -/
def hexDigit (n : Nat) : Char :=
  if n < 10 then Char.ofNat ('0'.toNat + n) else Char.ofNat ('a'.toNat + (n - 10))

/-- The digits of a number in base sixteen. -/
def hexDigits (n : Nat) : List Char :=
  if n < 16 then [hexDigit n] else hexDigits (n / 16) ++ [hexDigit (n % 16)]
termination_by n

/-- The digits of a number, with zeros in front up to the given width. -/
def padded (width n : Nat) : List Char :=
  let ds := natDigits n
  List.replicate (width - ds.length) '0' ++ ds

/-- A number with its sign in front when negative. -/
def intDigits (n : Int) : List Char :=
  if n < 0 then '-' :: natDigits n.natAbs else natDigits n.natAbs

/-- The text of a natural number. -/
def showNat (n : Nat) : String :=
  String.ofList (natDigits n)

/-- The text of an integer. -/
def showInt (n : Int) : String :=
  String.ofList (intDigits n)

end Harvest.Text
