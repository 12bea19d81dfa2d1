/-
ReservoirPlot/Binary/Format.lean

Binary interchange formats, in exact arithmetic.  A format is given by two
widths; a bit pattern is a natural number, the sign bit on top, then the biased
exponent, then the fraction.  Nothing here uses the machine's floating point:
a finite number is `significand * 2 ^ exponent` with whole `significand` and
`exponent`, so every statement about a number of a format is a statement about
integers.

* `Format.decode` says what a bit pattern denotes;
* `Format.nearest` gives the pattern of the number nearest to
  `significand * 2 ^ exponent`, a tie going to the even neighbour and a number
  beyond the last finite one to infinity.

The encoding rests on one fact: patterns of non-negative numbers are ordered as
the numbers are, and a significand that rounds up to the next power of two
carries into the exponent field by plain addition.
-/

namespace ReservoirPlot.Binary

/-- What a bit pattern denotes: `finite` stands for
`± significand * 2 ^ exponent`. -/
inductive Datum
  | nan
  | infinite (negative : Bool)
  | finite (negative : Bool) (significand : Nat) (exponent : Int)
deriving DecidableEq, Repr

/-- The widths of the fraction and of the exponent of a binary format. -/
structure Format where
  fractionBits : Nat
  exponentBits : Nat
deriving DecidableEq, Repr

/-- The 32-bit format. -/
def single : Format := ⟨23, 8⟩

/-- The 64-bit format. -/
def double : Format := ⟨52, 11⟩

namespace Format

/-- The significand of a power of two: its one bit is not written. -/
def hiddenBit (f : Format) : Nat :=
  Nat.pow 2 f.fractionBits

/-- The exponent of the last place of the smallest numbers. -/
def leastExponent (f : Format) : Int :=
  2 - (Nat.pow 2 (f.exponentBits - 1) : Nat) - f.fractionBits

/-- The pattern of positive infinity; greater magnitudes are not numbers. -/
def infinity (f : Format) : Nat :=
  (Nat.pow 2 f.exponentBits - 1) * f.hiddenBit

/-- The pattern with the sign bit alone, which is negative zero. -/
def sign (f : Format) : Nat :=
  Nat.pow 2 (f.fractionBits + f.exponentBits)

/-- The pattern that stands for "not a number". -/
def nan (f : Format) : Nat :=
  f.infinity + Nat.pow 2 (f.fractionBits - 1)

/-- A magnitude with its sign. -/
def signed (f : Format) (negative : Bool) (magnitude : Nat) : Nat :=
  if negative then f.sign + magnitude else magnitude

/-! ### Reading a pattern -/

/-- What a pattern of the format denotes. -/
def decode (f : Format) (bits : Nat) : Datum :=
  let negative : Bool := bits / f.sign % 2 = 1
  let magnitude := bits % f.sign
  let fraction := magnitude % f.hiddenBit
  let biased := magnitude / f.hiddenBit
  if magnitude > f.infinity then .nan
  else if magnitude = f.infinity then .infinite negative
  else if biased = 0 then .finite negative fraction f.leastExponent
  else .finite negative (f.hiddenBit + fraction) (f.leastExponent + (biased - 1 : Nat))

/-! ### Rounding -/

/-- The quotient rounded to the nearest whole number, a tie going to the even one. -/
def divideToEven (n d : Nat) : Nat :=
  if 2 * (n % d) < d then n / d
  else if d < 2 * (n % d) then n / d + 1
  else n / d + n / d % 2

/-- A whole quotient stays as it is. -/
theorem divideToEven_mul (q : Nat) {d : Nat} (hd : 0 < d) : divideToEven (q * d) d = q := by
  simp [divideToEven, Nat.mul_div_cancel _ hd, hd]

/-- The rounded quotient is the whole part of the exact one or its successor. -/
theorem divideToEven_eq_or (n d : Nat) :
    divideToEven n d = n / d ∨ divideToEven n d = n / d + 1 := by
  unfold divideToEven
  split
  · exact Or.inl rfl
  · split
    · exact Or.inr rfl
    · omega

/-- The exponent of the last place to which `significand * 2 ^ exponent` is rounded.
The rounded significand has one bit more than the fraction, except among the smallest
numbers, where it has fewer. -/
def lastPlace (f : Format) (significand : Nat) (exponent : Int) : Int :=
  max f.leastExponent (exponent + significand.log2 - f.fractionBits)

/-- The number `significand * 2 ^ exponent` in units of `2 ^ place`, rounded to a whole. -/
def inUnits (significand : Nat) (exponent place : Int) : Nat :=
  if place ≤ exponent then significand * Nat.pow 2 (exponent - place).toNat
  else divideToEven significand (Nat.pow 2 (place - exponent).toNat)

/-- The pattern of the number nearest to `significand * 2 ^ exponent`. -/
def nearestMagnitude (f : Format) (significand : Nat) (exponent : Int) : Nat :=
  if significand = 0 then 0
  else
    let place := f.lastPlace significand exponent
    min f.infinity
      ((place - f.leastExponent).toNat * f.hiddenBit + inUnits significand exponent place)

/-- The pattern of the number nearest to `± significand * 2 ^ exponent`, a tie going to
the even pattern. -/
def nearest (f : Format) (negative : Bool) (significand : Nat) (exponent : Int) : Nat :=
  f.signed negative (f.nearestMagnitude significand exponent)

/-- The pattern of the format that denotes the datum, or the nearest one. -/
def encode (f : Format) : Datum → Nat
  | .nan => f.nan
  | .infinite negative => f.signed negative f.infinity
  | .finite negative significand exponent => f.nearest negative significand exponent

end Format

/-! ### Arithmetic on what patterns denote -/

/-- The exact product of two data; infinity times zero is not a number. -/
def Datum.mul : Datum → Datum → Datum
  | .finite s m e, .finite t n k => .finite (s != t) (m * n) (e + k)
  | .infinite s, .infinite t => .infinite (s != t)
  | .infinite s, .finite t n _ => if n = 0 then .nan else .infinite (s != t)
  | .finite s m _, .infinite t => if m = 0 then .nan else .infinite (s != t)
  | .nan, _ => .nan
  | _, .nan => .nan

/-- The whole number that a finite datum has on the near side of zero. -/
def Datum.truncate (negative : Bool) (significand : Nat) (exponent : Int) : Int :=
  let magnitude : Nat :=
    if 0 ≤ exponent then significand * Nat.pow 2 exponent.toNat
    else significand / Nat.pow 2 (-exponent).toNat
  if negative then -magnitude else magnitude

end ReservoirPlot.Binary
