/-
ReservoirPlot/Decimal/Style.lean

How a binary number is written.  The digits are those of the shortest decimal
that reads back (`Decimal.shortest`); a style adds the choices that a format
makes for itself: where positional writing ends and scientific writing begins,
whether a whole number shows a point, and what happens to a tie.
-/
import ReservoirPlot.Decimal.Shortest
import ReservoirPlot.Binary.Binary64

namespace ReservoirPlot.Decimal

open Binary

/-- The choices of a format for finite numbers. -/
structure Style where
  /-- Whether a number whose first digit stands at this exponent is written without one. -/
  positional : Int → Bool
  /-- Whether a whole number in positional writing ends in a point and a zero. -/
  pointed : Bool
  tie : Tie

/-- Digits in positional writing, the first one at the given exponent of ten. -/
def positionalText (pointed : Bool) (ds : List Char) (leading : Int) : List Char :=
  if leading < 0 then
    ['0', '.'] ++ List.replicate (-leading - 1).toNat '0' ++ ds
  else
    let whole := leading.toNat + 1
    if ds.length ≤ whole then
      ds ++ List.replicate (whole - ds.length) '0' ++ (if pointed then ['.', '0'] else [])
    else ds.take whole ++ '.' :: ds.drop whole

/-- Digits in scientific writing; the exponent always has a sign. -/
def scientificText (ds : List Char) (leading : Int) : List Char :=
  let mantissa := match ds with
    | [] => []
    | [d] => [d]
    | d :: more => d :: '.' :: more
  mantissa ++ 'e' :: (if leading < 0 then '-' else '+') :: Nat.toDigits 10 leading.natAbs

/-- A decimal in a style. -/
def Style.text (style : Style) (d : Decimal) : List Char :=
  let leading := if d.coefficient = 0 then 0 else d.leadingExponent
  if style.positional leading then positionalText style.pointed d.digits leading
  else scientificText d.digits leading

/-- The finite number `± significand * 2 ^ exponent` of a format in a style. -/
def Style.finite (style : Style) (f : Format) (negative : Bool) (significand : Nat)
    (exponent : Int) : String :=
  let d := if significand = 0 then ⟨0, 0⟩ else shortest f style.tie significand exponent
  String.ofList ((if negative then ['-'] else []) ++ style.text d)

/-- Numbers in running text never have an exponent or an idle point, and of two
equally near decimals the greater is taken. -/
def plain : Style := ⟨fun _ => true, false, .up⟩

/-- A single-precision number in running text. -/
def plainText (x : Binary32) : String :=
  match x.datum with
  | .nan => "NaN"
  | .infinite negative => if negative then "-inf" else "inf"
  | .finite negative significand exponent => plain.finite single negative significand exponent

end ReservoirPlot.Decimal
