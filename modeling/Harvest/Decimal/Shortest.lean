import Harvest.Decimal.Binary64
import Harvest.Power
import Harvest.Text.Digits

/-! # The shortest decimal of a binary number

The decimal text of a `Binary64` has the fewest digits that still read back as the same number.
All real numbers nearer to `x` than to its neighbours form an interval, ends included when the
mantissa is even. The decimal grids are tried from the coarsest; the first one with a point in the
interval gives the digits, and of two points the nearer one is taken.

## Main definitions

* `shortest`: digits `d` and exponent `p` standing for `d · 10 ^ p`.
* `render`: the text, positional or with an exponent.
-/

namespace Harvest.Decimal

open Harvest.Text

/-- The interval of real numbers that round to a magnitude, in quarters of its last place. -/
structure Interval where
  low : Nat
  middle : Nat
  high : Nat
  /-- The weight of a quarter is `2 ^ exponent`. -/
  exponent : Int
  closed : Bool

/-- The rounding interval of a magnitude. Below a power of two the lower half is narrower. -/
def Interval.of (x : Binary64) : Interval :=
  let narrow := x.mantissa = twoTo 52 ∧ Binary64.minExponent < x.exponent
  { low := if narrow then 4 * x.mantissa - 1 else 4 * x.mantissa - 2
    middle := 4 * x.mantissa
    high := 4 * x.mantissa + 2
    exponent := x.exponent - 2
    closed := x.mantissa % 2 = 0 }

/-- Factors `(a, b)` such that `d · 10 ^ p` compares with `n · 2 ^ e` as `d · a` with `n · b`. -/
def commonScale (p e : Int) : Nat × Nat :=
  (tenTo p.toNat * twoTo (-e).toNat, tenTo (-p).toNat * twoTo e.toNat)

/-- The points of the grid `10 ^ p` next to the middle that lie in the interval, nearer first. -/
def Interval.pointsOn (i : Interval) (p : Int) : List Nat :=
  let (a, b) := commonScale p i.exponent
  let inside (d : Nat) : Bool :=
    if i.closed then i.low * b ≤ d * a && d * a ≤ i.high * b
    else i.low * b < d * a && d * a < i.high * b
  let below := i.middle * b / a
  let twice := 2 * (i.middle * b - below * a)
  let nearerAbove := a < twice || (a == twice && below % 2 == 1)
  let order := if nearerAbove then [below + 1, below] else [below, below + 1]
  order.filter inside

/-- The exponent of the leading decimal digit of `num / den`, when both are positive. -/
def leadingExponent (num den : Nat) : Int :=
  let guess : Int := ((natDigits num).length : Int) - ((natDigits den).length : Int)
  let (a, b) := if 0 ≤ guess then (num, den * tenTo guess.toNat)
    else (num * tenTo (-guess).toNat, den)
  if a < b then guess - 1 else guess

/-- Takes trailing zeros of the digits into the exponent. -/
def stripZeros (d : Nat) (p : Int) : Nat × Int :=
  if h : 0 < d ∧ d % 10 = 0 then stripZeros (d / 10) (p + 1) else (d, p)
termination_by d
decreasing_by omega

/-- Tries `grids` ever finer grids, starting from `10 ^ p`. -/
def Interval.firstPoint (i : Interval) (p : Int) : Nat → Nat × Int
  | 0 => (i.middle, p)
  | grids + 1 =>
    match i.pointsOn p with
    | d :: _ => stripZeros d p
    | [] => i.firstPoint (p - 1) grids

/-- The shortest digits of a positive magnitude, with the exponent of the last one. Seventeen
digits always suffice. -/
def shortest (x : Binary64) : Nat × Int :=
  let (num, den) := x.ratio
  (Interval.of x).firstPoint (leadingExponent num den) 18

/-- How a number is laid out. -/
structure Layout where
  /-- The least exponent of the leading digit that is written positionally. -/
  leastPositional : Int
  /-- The greatest one. -/
  greatestPositional : Int

/-- Numbers are positional from `0.00001` to below `10 ^ 16`. -/
def Layout.standard : Layout := ⟨-5, 15⟩

/-- The text of digits `d · 10 ^ p`, always with a fraction when positional; an exponent carries
its sign. -/
def Layout.render (l : Layout) (d : Nat) (p : Int) : List Char :=
  let ds := natDigits d
  let lead : Int := p + ds.length - 1
  if l.leastPositional ≤ lead ∧ lead ≤ l.greatestPositional then
    if 0 ≤ p then ds ++ List.replicate p.toNat '0' ++ ['.', '0']
    else if 0 ≤ lead then ds.take (lead.toNat + 1) ++ '.' :: ds.drop (lead.toNat + 1)
    else '0' :: '.' :: List.replicate (-lead - 1).toNat '0' ++ ds
  else
    let fraction := if ds.length = 1 then [] else '.' :: ds.drop 1
    let sign := if lead < 0 then '-' else '+'
    ds.take 1 ++ fraction ++ 'e' :: sign :: natDigits lead.natAbs

/-- The text of a number: the shortest digits that read back. -/
def render (x : Binary64) : List Char :=
  let body := if x.isZero then ['0', '.', '0']
    else
      let (d, p) := shortest x
      Layout.standard.render d p
  if x.negative then '-' :: body else body

end Harvest.Decimal
