/-
ReservoirPlot/Proofs/Binary/Patterns.lean

Bit patterns read by their three parts, apart from any code that reads them.  With
`p` bits of fraction and `w` bits of exponent, a pattern whose exponent is not all
ones stands for

    ± fraction * 2 ^ (2 - 2 ^ (w - 1) - p)                        if the exponent is 0
    ± (2 ^ p + fraction) * 2 ^ (exponent + 1 - 2 ^ (w - 1) - p)   otherwise

and one whose exponent is all ones for an infinity, if the fraction is 0, or for no
number.  `decode_of_finite`, `decode_of_infinite` and `decode_of_nan` say that
`Format.decode` reads patterns so.

On these parts rests what is said of the two ways in which a single-precision number
is taken over into another type: cut to an integer (`castsTo_toInt32`) and widened to
double precision (`widens_ofBinary32`).
-/
import Mathlib.Data.Rat.Floor
import Mathlib.Tactic.Linarith
import ReservoirPlot.Proofs.Binary.WholeNumbers

namespace ReservoirPlot

namespace Binary

/-! ### Parts of a pattern -/

/-- Whether the sign bit is set. -/
def IsNegative (p w bits : Nat) : Prop := bits / 2 ^ (p + w) % 2 = 1

instance (p w bits : Nat) : Decidable (IsNegative p w bits) :=
  inferInstanceAs (Decidable (_ = _))

/-- The exponent, as it is stored. -/
def exponentOf (p w bits : Nat) : Nat := bits / 2 ^ p % 2 ^ w

/-- The fraction, as it is stored. -/
def fractionOf (p bits : Nat) : Nat := bits % 2 ^ p

/-- The significand of a pattern whose exponent is not all ones. -/
def significandOf (p w bits : Nat) : Nat :=
  if exponentOf p w bits = 0 then fractionOf p bits else 2 ^ p + fractionOf p bits

/-- The exponent of two at which the last place of a pattern stands. -/
def placeOf (p w bits : Nat) : Int :=
  if exponentOf p w bits = 0 then 2 - 2 ^ (w - 1) - p
  else exponentOf p w bits + 1 - 2 ^ (w - 1) - p

/-- The magnitude of a pattern whose exponent is not all ones. -/
def magnitudeOf (p w bits : Nat) : ℚ :=
  significandOf p w bits * 2 ^ placeOf p w bits

/-- The number that a pattern stands for whose exponent is not all ones. -/
def numberOf (p w bits : Nat) : ℚ :=
  if IsNegative p w bits then -magnitudeOf p w bits else magnitudeOf p w bits

namespace Format

variable (f : Format) {bits : Nat}

/-- Below the sign, a pattern is its exponent and its fraction. -/
theorem mod_sign_eq (bits : Nat) : bits % f.sign
    = exponentOf f.fractionBits f.exponentBits bits * f.hiddenBit
      + fractionOf f.fractionBits bits := by
  show bits % 2 ^ (f.fractionBits + f.exponentBits)
    = bits / 2 ^ f.fractionBits % 2 ^ f.exponentBits * 2 ^ f.fractionBits
      + bits % 2 ^ f.fractionBits
  rw [Nat.pow_add, Nat.mod_mul, Nat.add_comm, Nat.mul_comm]

theorem fractionOf_lt (bits : Nat) : fractionOf f.fractionBits bits < f.hiddenBit :=
  Nat.mod_lt _ f.hiddenBit_pos

theorem magnitude_div (bits : Nat) :
    bits % f.sign / f.hiddenBit = exponentOf f.fractionBits f.exponentBits bits := by
  rw [mod_sign_eq, Nat.mul_comm, Nat.mul_add_div f.hiddenBit_pos,
    Nat.div_eq_of_lt (f.fractionOf_lt bits), Nat.add_zero]

theorem magnitude_mod (bits : Nat) :
    bits % f.sign % f.hiddenBit = fractionOf f.fractionBits bits := by
  rw [mod_sign_eq, Nat.mul_comm, Nat.mul_add_mod, Nat.mod_eq_of_lt (f.fractionOf_lt bits)]

theorem exponentOf_lt (bits : Nat) :
    exponentOf f.fractionBits f.exponentBits bits < 2 ^ f.exponentBits :=
  Nat.mod_lt _ (Nat.two_pow_pos _)

/-- Without an exponent of all ones a pattern is below infinity. -/
theorem magnitude_lt_infinity
    (h : exponentOf f.fractionBits f.exponentBits bits ≠ 2 ^ f.exponentBits - 1) :
    bits % f.sign < f.infinity := by
  have hexponent := f.exponentOf_lt bits
  have hsucc : exponentOf f.fractionBits f.exponentBits bits + 1 ≤ 2 ^ f.exponentBits - 1 := by
    omega
  calc bits % f.sign
      = exponentOf f.fractionBits f.exponentBits bits * f.hiddenBit
        + fractionOf f.fractionBits bits := f.mod_sign_eq bits
    _ < (exponentOf f.fractionBits f.exponentBits bits + 1) * f.hiddenBit := by
      rw [Nat.succ_mul]
      exact Nat.add_lt_add_left (f.fractionOf_lt bits) _
    _ ≤ f.infinity := Nat.mul_le_mul_right _ hsucc

/-- A pattern whose exponent is not all ones is read as its sign, its significand and its last
place. -/
theorem decode_of_finite
    (h : exponentOf f.fractionBits f.exponentBits bits ≠ 2 ^ f.exponentBits - 1) :
    f.decode bits = .finite (IsNegative f.fractionBits f.exponentBits bits)
      (significandOf f.fractionBits f.exponentBits bits)
      (placeOf f.fractionBits f.exponentBits bits) := by
  have hbelow := f.magnitude_lt_infinity h
  have hpow : ((Nat.pow 2 (f.exponentBits - 1) : Nat) : Int) = 2 ^ (f.exponentBits - 1) :=
    Nat.cast_pow 2 _
  unfold decode
  dsimp only
  rw [if_neg (Nat.not_lt_of_lt hbelow), if_neg (Nat.ne_of_lt hbelow), magnitude_div,
    magnitude_mod, significandOf, placeOf]
  by_cases hzero : exponentOf f.fractionBits f.exponentBits bits = 0
  · rw [if_pos hzero, if_pos hzero, if_pos hzero, leastExponent, hpow]
    rfl
  · have hexponent : f.leastExponent
          + (exponentOf f.fractionBits f.exponentBits bits - 1 : Nat)
        = exponentOf f.fractionBits f.exponentBits bits + 1 - 2 ^ (f.exponentBits - 1)
          - f.fractionBits := by
      rw [leastExponent, hpow]
      omega
    rw [if_neg hzero, if_neg hzero, if_neg hzero, hexponent]
    rfl

theorem decode_of_infinite
    (h : exponentOf f.fractionBits f.exponentBits bits = 2 ^ f.exponentBits - 1)
    (hfraction : fractionOf f.fractionBits bits = 0) :
    f.decode bits = .infinite (IsNegative f.fractionBits f.exponentBits bits) := by
  have hmagnitude : bits % f.sign = f.infinity := by
    rw [mod_sign_eq, h, hfraction]
    rfl
  unfold decode
  dsimp only
  rw [if_neg (by omega), if_pos hmagnitude]
  rfl

theorem decode_of_nan
    (h : exponentOf f.fractionBits f.exponentBits bits = 2 ^ f.exponentBits - 1)
    (hfraction : fractionOf f.fractionBits bits ≠ 0) : f.decode bits = .nan := by
  have hmagnitude : bits % f.sign = f.infinity + fractionOf f.fractionBits bits := by
    rw [mod_sign_eq, h]
    rfl
  unfold decode
  dsimp only
  rw [if_pos (by omega)]

/-- A pattern that is read as a number has this number, and its sign. -/
theorem numberOf_of_decode {negative : Bool} {m : Nat} {e : Int}
    (h : f.decode bits = .finite negative m e) :
    exponentOf f.fractionBits f.exponentBits bits ≠ 2 ^ f.exponentBits - 1
      ∧ (IsNegative f.fractionBits f.exponentBits bits ↔ negative = true)
      ∧ numberOf f.fractionBits f.exponentBits bits
        = if negative then -scaled m e else scaled m e := by
  have hexponent : exponentOf f.fractionBits f.exponentBits bits ≠ 2 ^ f.exponentBits - 1 := by
    intro hall
    by_cases hfraction : fractionOf f.fractionBits bits = 0
    · rw [f.decode_of_infinite hall hfraction] at h
      cases h
    · rw [f.decode_of_nan hall hfraction] at h
      cases h
  obtain ⟨rfl, rfl, rfl⟩ := Datum.finite.inj ((f.decode_of_finite hexponent).symm.trans h)
  refine ⟨hexponent, decide_eq_true_iff.symm, ?_⟩
  simp only [numberOf, magnitudeOf, scaled, decide_eq_true_eq]

end Format

/-! ### Truncation -/

/-- The whole number next to a number on the side of zero. -/
def towardZero (q : ℚ) : Int := if 0 ≤ q then ⌊q⌋ else ⌈q⌉

theorem floor_scaled (m : Nat) (e : Int) : ⌊scaled m e⌋
    = ((if 0 ≤ e then m * 2 ^ e.toNat else m / 2 ^ (-e).toNat : Nat) : Int) := by
  split
  · next he =>
    obtain ⟨n, rfl⟩ := Int.eq_ofNat_of_zero_le he
    have hwhole : scaled m n = ((m * 2 ^ n : Nat) : ℚ) := by
      rw [scaled, zpow_natCast, Nat.cast_mul, Nat.cast_pow, Nat.cast_ofNat]
    show ⌊scaled m n⌋ = ((m * 2 ^ n : Nat) : Int)
    rw [hwhole, Int.floor_natCast]
  · next he =>
    obtain ⟨n, hn⟩ := Int.eq_ofNat_of_zero_le (Int.neg_nonneg_of_nonpos (Int.le_of_not_le he))
    obtain rfl : e = -(n : Int) := by omega
    have hquotient : scaled m (-n) = (m : ℚ) / ((2 ^ n : Nat) : ℚ) := by
      rw [scaled, zpow_neg, zpow_natCast, div_eq_mul_inv, Nat.cast_pow, Nat.cast_ofNat]
    rw [hquotient, Int.neg_neg, Int.toNat_natCast]
    exact_mod_cast Rat.floor_natCast_div_natCast m (2 ^ n)

theorem scaled_nonneg (m : Nat) (e : Int) : 0 ≤ scaled m e :=
  mul_nonneg (Nat.cast_nonneg m) (zpow_nonneg zero_le_two e)

/-- Cutting a datum is cutting its number. -/
theorem Datum.truncate_eq (negative : Bool) (m : Nat) (e : Int) :
    Datum.truncate negative m e = towardZero (if negative then -scaled m e else scaled m e) := by
  have hnonneg := scaled_nonneg m e
  have hfloor := floor_scaled m e
  cases negative with
  | false =>
    rw [if_neg Bool.false_ne_true, towardZero, if_pos hnonneg, hfloor]
    rfl
  | true =>
    have hceil : towardZero (-scaled m e) = -⌊scaled m e⌋ := by
      rw [towardZero]
      split
      · next hneg =>
        have hzero : scaled m e = 0 := by linarith
        rw [hzero, neg_zero, Int.floor_zero, neg_zero]
      · exact Int.ceil_neg
    rw [if_pos rfl, hceil, hfloor]
    rfl

end Binary

open Binary

/-! ### Single precision as an integer -/

namespace Binary32

/-- What a single-precision number becomes as a signed integer of 32 bits: 0 if it is none, the last
integer on its side if it is beyond all, and otherwise what is left of it without its fraction. -/
structure CastsTo (x : Binary32) (k : Int) : Prop where
  nan : exponentOf 23 8 x.bits.toNat = 255 → fractionOf 23 x.bits.toNat ≠ 0 → k = 0
  infinite : exponentOf 23 8 x.bits.toNat = 255 → fractionOf 23 x.bits.toNat = 0 →
    k = if IsNegative 23 8 x.bits.toNat then -2 ^ 31 else 2 ^ 31 - 1
  finite : exponentOf 23 8 x.bits.toNat ≠ 255 →
    k = max (-2 ^ 31) (min (towardZero (numberOf 23 8 x.bits.toNat)) (2 ^ 31 - 1))

theorem castsTo_toInt32 (x : Binary32) : x.CastsTo x.toInt32.toInt where
  nan hexponent hfraction := by
    have hdatum : x.datum = .nan := single.decode_of_nan hexponent hfraction
    rw [toInt32, hdatum]
    rfl
  infinite hexponent hfraction := by
    have hdatum : x.datum = .infinite _ := single.decode_of_infinite hexponent hfraction
    rw [toInt32, hdatum]
    show (if decide (IsNegative 23 8 _) then Int32.minValue else Int32.maxValue).toInt = _
    by_cases hnegative : IsNegative 23 8 x.bits.toNat
    · rw [if_pos (decide_eq_true hnegative), if_pos hnegative]
      rfl
    · rw [if_neg (fun h => hnegative (of_decide_eq_true h)), if_neg hnegative]
      rfl
  finite hexponent := by
    obtain ⟨m, e, hdatum⟩ : ∃ m e, x.datum = .finite _ m e :=
      ⟨_, _, single.decode_of_finite hexponent⟩
    obtain ⟨-, -, hnumber⟩ := single.numberOf_of_decode hdatum
    rw [toInt32, hdatum]
    show (Int32.ofIntClamp (Datum.truncate _ m e)).toInt
      = max _ (min (towardZero (numberOf single.fractionBits single.exponentBits _)) _)
    rw [toInt_ofIntClamp_eq, Datum.truncate_eq, hnumber]

end Binary32

/-! ### Single precision as double precision -/

namespace Binary64

/-- The double-precision number is the single-precision one: the same number with the same sign, the
same infinity, or no number if that is none. -/
structure Widens (x : Binary32) (y : Binary64) : Prop where
  nan : exponentOf 23 8 x.bits.toNat = 255 → fractionOf 23 x.bits.toNat ≠ 0 →
    exponentOf 52 11 y.bits.toNat = 2047 ∧ fractionOf 52 y.bits.toNat ≠ 0
  infinite : exponentOf 23 8 x.bits.toNat = 255 → fractionOf 23 x.bits.toNat = 0 →
    exponentOf 52 11 y.bits.toNat = 2047 ∧ fractionOf 52 y.bits.toNat = 0
      ∧ (IsNegative 52 11 y.bits.toNat ↔ IsNegative 23 8 x.bits.toNat)
  finite : exponentOf 23 8 x.bits.toNat ≠ 255 →
    exponentOf 52 11 y.bits.toNat ≠ 2047
      ∧ (IsNegative 52 11 y.bits.toNat ↔ IsNegative 23 8 x.bits.toNat)
      ∧ numberOf 52 11 y.bits.toNat = numberOf 23 8 x.bits.toNat

theorem widens_ofBinary32 (x : Binary32) : Widens x (.ofBinary32 x) where
  nan hexponent hfraction := by
    have hdatum : x.datum = .nan := single.decode_of_nan hexponent hfraction
    rw [ofBinary32, hdatum]
    decide
  infinite hexponent hfraction := by
    have hdatum : x.datum = .infinite _ := single.decode_of_infinite hexponent hfraction
    have hsign : IsNegative 23 8 x.bits.toNat
        ↔ decide (IsNegative single.fractionBits single.exponentBits x.bits.toNat) = true :=
      decide_eq_true_iff.symm
    rw [ofBinary32, hdatum, hsign]
    generalize decide (IsNegative single.fractionBits single.exponentBits x.bits.toNat) = negative
    cases negative <;> decide
  finite hexponent := by
    obtain ⟨negative, m, n, hdatum, hm, hn⟩ := x.datum_of_isFinite hexponent
    obtain ⟨-, hsign, hnumber⟩ := single.numberOf_of_decode hdatum
    obtain ⟨q, k, hwide, hscaled⟩ := exists_datum_ofDatum (e := -149 + n)
      (Nat.lt_trans hm (by decide)) (by omega) (by omega) negative
    have hwide' : (ofBinary32 x).datum = .finite negative q k := by rw [ofBinary32, hdatum, hwide]
    obtain ⟨hfinite, hsign', hnumber'⟩ := double.numberOf_of_decode hwide'
    refine ⟨hfinite, hsign'.trans hsign.symm, ?_⟩
    show numberOf double.fractionBits double.exponentBits _
      = numberOf single.fractionBits single.exponentBits _
    rw [hnumber, hnumber', hscaled]

end Binary64

end ReservoirPlot
