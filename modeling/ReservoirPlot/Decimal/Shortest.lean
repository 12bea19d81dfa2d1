/-
ReservoirPlot/Decimal/Shortest.lean

The shortest decimal that reads back as a given binary number.  A finite binary
number is a decimal exactly: with a negative `e`, `m * 2 ^ e` is
`(m * 5 ^ (-e)) * 10 ^ e`.  All decimals that round to the number form an interval around
it, half a last place to either side, except that a power of two has only a
quarter below it; the ends belong to the interval when `m` is even.

For one digit, two digits and so on, `Decimal.shortest` looks at the two
neighbours of the number that have so many digits.  The first count at which one
of them lies in the interval wins; if both do, the nearer one is taken, and
`Tie` says what happens halfway.
-/
import ReservoirPlot.Binary.Format

namespace ReservoirPlot

/-- The number `coefficient * 10 ^ exponent`. -/
structure Decimal where
  coefficient : Nat
  exponent : Int
deriving DecidableEq, Repr

/-- Which of two equally near neighbours is taken: the one with the even last digit,
or the greater one. -/
inductive Tie
  | even
  | up
deriving DecidableEq, Repr

namespace Decimal

open Binary

/-- The value of `2 ^ exponent` in units of `10 ^ min exponent 0`. -/
def unit (exponent : Int) : Nat :=
  if 0 ≤ exponent then Nat.pow 2 exponent.toNat else Nat.pow 5 (-exponent).toNat

/-- The decimal equal to `significand * 2 ^ exponent`. -/
def ofBinary (significand : Nat) (exponent : Int) : Decimal :=
  ⟨significand * unit exponent, min exponent 0⟩

/-- The decimal digits of the coefficient, the highest first. -/
def digits (d : Decimal) : List Char :=
  Nat.toDigits 10 d.coefficient

/-- The exponent of ten at which the first digit stands. -/
def leadingExponent (d : Decimal) : Int :=
  d.exponent + d.digits.length - 1

/-- The decimals that round to a binary number, scaled so that four units of the
coefficient make one: from `low` to `high`, the ends included when `closed`. -/
structure Interval where
  low : Nat
  high : Nat
  closed : Bool

/-- The interval of `significand * 2 ^ exponent` in a format, in quarters of a unit. -/
def Interval.around (f : Format) (significand : Nat) (exponent : Int) : Interval :=
  let u := unit exponent
  let narrow := significand = f.hiddenBit && f.leastExponent < exponent
  ⟨4 * (significand * u) - (if narrow then u else 2 * u), 4 * (significand * u) + 2 * u,
    significand % 2 = 0⟩

/-- Whether a coefficient lies in the interval. -/
def Interval.holds (i : Interval) (coefficient : Nat) : Bool :=
  if i.closed then i.low ≤ 4 * coefficient && 4 * coefficient ≤ i.high
  else i.low < 4 * coefficient && 4 * coefficient < i.high

/-- The nearer of two neighbours on a grid of the given step. -/
def nearer (tie : Tie) (exact step low high : Nat) : Nat :=
  if exact - low < high - exact then low
  else if high - exact < exact - low then high
  else match tie with
    | .even => if low / step % 2 = 0 then low else high
    | .up => high

/-- The better one of the two neighbours of `exact` among the multiples of `step`, if
one of them lies in the interval. -/
def neighbour? (tie : Tie) (i : Interval) (exact step : Nat) : Option Nat :=
  let low := exact / step * step
  let high := low + step
  match i.holds low, i.holds high with
  | true, true => some (nearer tie exact step low high)
  | true, false => some low
  | false, true => some high
  | false, false => none

/-- A decimal without the zeros at the end of its coefficient. -/
def trimmed (d : Decimal) : Decimal :=
  let zeros := (d.digits.reverse.takeWhile (· = '0')).length
  ⟨d.coefficient / Nat.pow 10 zeros, d.exponent + zeros⟩

/-- The decimal with the fewest digits that rounds to `significand * 2 ^ exponent` in
the format, and the nearest of these. -/
def shortest (f : Format) (tie : Tie) (significand : Nat) (exponent : Int) : Decimal :=
  let exact := ofBinary significand exponent
  let interval := Interval.around f significand exponent
  let count := exact.digits.length
  let coefficient? := (List.range count).findSome? fun k =>
    neighbour? tie interval exact.coefficient (Nat.pow 10 (count - 1 - k))
  trimmed ⟨coefficient?.getD exact.coefficient, exact.exponent⟩

end Decimal

end ReservoirPlot
