import Harvest.Power

/-! # Binary floating point of 64 bits

A finite number `± mantissa · 2 ^ exponent` with at most 53 bits of mantissa, and the one rounding
rule behind every operation on it: a quotient of whole numbers goes to the nearest such number, a
tie to the even mantissa.

## Main definitions

* `Binary64`: a finite number, zero carrying a sign.
* `Binary64.round?`: the nearest number to a quotient, unless it is too large.
* `Binary64.ofNat?`, `Binary64.mul?`, `Binary64.div?`: the rounded operations.
-/

namespace Harvest.Decimal

/-- A finite binary number of 64 bits. -/
structure Binary64 where
  negative : Bool
  mantissa : Nat
  exponent : Int
deriving DecidableEq, Repr, Inhabited

namespace Binary64

/-- The least exponent. -/
def minExponent : Int := -1074

/-- The greatest exponent of a mantissa of 53 bits. -/
def maxExponent : Int := 971

/-- Zero without a sign. -/
def zero : Binary64 := ⟨false, 0, minExponent⟩

def isZero (x : Binary64) : Bool := x.mantissa == 0

/-- The number with the given sign and the magnitude of `x`. -/
def withSign (negative : Bool) (x : Binary64) : Binary64 := { x with negative }

/-! ## Rounding -/

/-- The quotient rounded to a whole number, a tie to the even one. -/
def divTiesToEven (num den : Nat) : Nat :=
  let q := num / den
  let r := num % den
  if 2 * r < den then q
  else if den < 2 * r then q + 1
  else if q % 2 = 0 then q else q + 1

/-- `num / (den · 2 ^ e)` as a quotient of whole numbers. -/
def scaled (num den : Nat) (e : Int) : Nat × Nat :=
  if 0 ≤ e then (num, den * twoTo e.toNat) else (num * twoTo (-e).toNat, den)

/-- The exponent that leaves 53 bits before the point, and never less than the least one. -/
def exponentFor (num den : Nat) : Int :=
  let guess : Int := (Nat.log2 num : Int) - (Nat.log2 den : Int) - 52
  let (a, b) := scaled num den guess
  max (if a < twoTo 52 * b then guess - 1 else guess) minExponent

/-- The nearest number to `num / den`, or `none` when that lies beyond the largest one. -/
def round? (num den : Nat) : Option Binary64 :=
  if num = 0 then some zero
  else
    let e := exponentFor num den
    let (a, b) := scaled num den e
    let m := divTiesToEven a b
    let (m, e) := if m = twoTo 53 then (twoTo 52, e + 1) else (m, e)
    if e ≤ maxExponent then some ⟨false, m, e⟩ else none

/-! ## Operations on magnitudes -/

/-- The magnitude as a quotient of whole numbers. -/
def ratio (x : Binary64) : Nat × Nat :=
  if 0 ≤ x.exponent then (x.mantissa * twoTo x.exponent.toNat, 1)
  else (x.mantissa, twoTo (-x.exponent).toNat)

/-- The nearest number to a whole number. -/
def ofNat? (n : Nat) : Option Binary64 := round? n 1

/-- The nearest number to an integer within the range of a word. -/
def ofInt (n : Int) : Binary64 :=
  ((ofNat? n.natAbs).getD zero).withSign (n < 0)

/-- The rounded product of two magnitudes. -/
def mul? (x y : Binary64) : Option Binary64 :=
  let (a, b) := x.ratio
  let (c, d) := y.ratio
  round? (a * c) (b * d)

/-- The rounded quotient of two magnitudes. -/
def div? (x y : Binary64) : Option Binary64 :=
  let (a, b) := x.ratio
  let (c, d) := y.ratio
  if c = 0 then none else round? (a * d) (b * c)

/-- The nearest number to a power of ten. -/
def powerOfTen? (k : Nat) : Option Binary64 := ofNat? (tenTo k)

end Binary64

end Harvest.Decimal
