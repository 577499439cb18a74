import Harvest.Decimal.Binary64
import Harvest.Power
import Harvest.Text.Digits

/-! # Decimal numerals

A numeral as it is written: sign, whole digits, fraction digits and exponent. Its value is a whole
number when it is written as one and fits a word of 64 bits, and a binary number otherwise.

The binary value is found in two rounded steps, not one: the leading digits that fit a word of 64
bits are taken as a binary number, which is then multiplied or divided by a power of ten. The
second step can move the last bit of a numeral of more than fifteen digits.
-/

namespace Harvest.Decimal

open Harvest.Text

/-- A decimal numeral, by the values of its digits. -/
structure Numeral where
  negative : Bool
  whole : List Nat
  fraction : List Nat
  /-- The exponent as written: whether it is negative, and its digits. -/
  exponent : Option (Bool × List Nat)
deriving Repr, DecidableEq

/-- The value of a numeral. -/
inductive Number where
  | whole (n : Int)
  | real (x : Binary64)
deriving Repr, DecidableEq

/-- Extends a word of 64 bits by as many digits as fit; returns the rest of the digits too. -/
def takeWord (word : Nat) : List Nat → Nat × List Nat
  | [] => (word, [])
  | d :: ds => if word * 10 + d < twoTo 64 then takeWord (word * 10 + d) ds else (word, d :: ds)

/-- Multiplies a magnitude by a power of ten. Beyond the largest exact step it first divides by
`10 ^ 308`; three such steps empty any word. -/
def scaleByTen (f : Binary64) (e : Int) : Nat → Option Binary64
  | 0 => none
  | steps + 1 =>
    if e.natAbs ≤ 308 then do
      let power ← Binary64.powerOfTen? e.natAbs
      if 0 ≤ e then f.mul? power else f.div? power
    else if f.isZero then some f
    else if 0 ≤ e then none
    else do
      let power ← Binary64.powerOfTen? 308
      scaleByTen (← f.div? power) (e + 308) steps

/-- The value of an exponent as written, unless its magnitude exceeds a signed word of 32 bits. -/
def exponentValue? (ds : List Nat) : Option Nat :=
  let n := ofDigits ds
  if n < twoTo 31 then some n else none

namespace Numeral

/-- Whether the numeral is written without fraction and exponent. -/
def isWhole (n : Numeral) : Bool :=
  n.fraction.isEmpty && n.exponent.isNone

/-- The magnitude as a binary number; `none` when it is too large. -/
def magnitude? (n : Numeral) : Option Binary64 := do
  let (word, dropped) := takeWord 0 n.whole
  let (significand, unread) := takeWord word n.fraction
  let shift : Int := dropped.length - (n.fraction.length - unread.length : Nat)
  let start ← Binary64.ofNat? significand
  match n.exponent with
  | none => scaleByTen start shift 4
  | some (isNegative, ds) =>
    match exponentValue? ds with
    | some e => scaleByTen start (if isNegative then shift - e else shift + e) 4
    | none => if significand ≠ 0 ∧ !isNegative then none else some Binary64.zero

/-- The value of a numeral; `none` when it is beyond the largest binary number. A negative zero
is a binary number. -/
def value? (n : Numeral) : Option Number :=
  let word := ofDigits n.whole
  if n.isWhole ∧ !n.negative ∧ word < twoTo 64 then some (.whole word)
  else if n.isWhole ∧ n.negative ∧ 0 < word ∧ word ≤ twoTo 63 then some (.whole (-(word : Int)))
  else n.magnitude?.map fun x => .real (x.withSign n.negative)

end Numeral

/-- The value as a binary number. -/
def Number.toBinary64 : Number → Binary64
  | .whole n => Binary64.ofInt n
  | .real x => x

end Harvest.Decimal
