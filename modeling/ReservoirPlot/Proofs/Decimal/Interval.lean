/-
ReservoirPlot/Proofs/Decimal/Interval.lean

The decimals that read back, as an interval.  Everything is counted in units of the
exact decimal: the number itself is a whole number of units,

    significand * 2 ^ place  =  (significand * unit) * 10 ^ min place 0

and what reads as its pattern goes half the way to the patterns beside it, in units
too, the ends included if the significand is even.

Main result: `readsAs_iff_has`.
-/
import ReservoirPlot.Decimal.Shortest
import ReservoirPlot.Proofs.Binary.ReadsBack

namespace ReservoirPlot.Decimal

open Binary

variable {f : Format} {m n c : Nat} {e : Int} {y : ℚ} {i : Interval}

/-! ### Units -/

theorem unit_pos (e : Int) : 0 < unit e := by
  rw [unit]
  split
  · exact Nat.two_pow_pos _
  · exact Nat.pow_pos (by decide)

/-- A unit is one power of ten, and `unit e` units are the power of two. -/
theorem unit_mul_zpow (e : Int) : (unit e : ℚ) * 10 ^ min e 0 = 2 ^ e := by
  rw [unit]
  split
  · next he =>
    obtain ⟨k, rfl⟩ := Int.eq_ofNat_of_zero_le he
    rw [min_eq_right he, zpow_zero, mul_one]
    exact_mod_cast rfl
  · next he =>
    obtain ⟨k, hk⟩ := Int.eq_ofNat_of_zero_le (Int.neg_nonneg_of_nonpos (Int.le_of_not_le he))
    obtain rfl : e = -(k : Int) := by omega
    have hten : (10 : ℚ) = 2 * 5 := by norm_num
    rw [min_eq_left (by omega), neg_neg, Int.toNat_natCast, zpow_neg, zpow_natCast, zpow_neg,
      zpow_natCast, hten, mul_pow, mul_inv]
    have hpow : ((Nat.pow 5 k : Nat) : ℚ) = 5 ^ k := Nat.cast_pow 5 k
    rw [hpow, mul_left_comm, mul_inv_cancel₀ (by positivity), mul_one]

/-! ### What reads back -/

/-- A number of units is in an interval. -/
def Interval.Has (i : Interval) (y : ℚ) : Prop :=
  if i.closed then (i.low : ℚ) ≤ 4 * y ∧ 4 * y ≤ i.high else (i.low : ℚ) < 4 * y ∧ 4 * y < i.high

theorem Interval.holds_iff : i.holds c ↔ i.Has c := by
  rw [holds, Has]
  split
  · rw [Bool.and_eq_true, decide_eq_true_eq, decide_eq_true_eq]
    norm_cast
  · rw [Bool.and_eq_true, decide_eq_true_eq, decide_eq_true_eq]
    norm_cast

/-- What is between two numbers of an interval is in it. -/
theorem Interval.Has.between {a b : ℚ} (ha : i.Has a) (hb : i.Has b) (hay : a ≤ y)
    (hyb : y ≤ b) : i.Has y := by
  unfold Interval.Has at *
  split
  · next hclosed =>
    rw [if_pos hclosed] at ha hb
    constructor <;> linarith
  · next hopen =>
    rw [if_neg hopen] at ha hb
    constructor <;> linarith

/-- The units to the next smaller number. -/
def below (f : Format) (m : Nat) (e : Int) : ℚ :=
  if m = f.hiddenBit ∧ f.leastExponent < e then (unit e : ℚ) / 2 else unit e

theorem below_pos (f : Format) (m : Nat) (e : Int) : 0 < below f m e := by
  have hu : (0 : ℚ) < unit e := Nat.cast_pos.mpr (unit_pos e)
  rw [below]
  split
  · exact half_pos hu
  · exact hu

/-- The interval around a number goes half the way to the numbers beside it. -/
theorem Interval.has_around_iff (hm : m ≠ 0) : (Interval.around f m e).Has y ↔
    ((m * unit e : Nat) - below f m e + (m * unit e : Nat) < 2 * y
        ∨ (m * unit e : Nat) - below f m e + (m * unit e : Nat) = 2 * y ∧ m % 2 = 0)
      ∧ (2 * y < (m * unit e : Nat) + ((m * unit e : Nat) + unit e)
        ∨ 2 * y = (m * unit e : Nat) + ((m * unit e : Nat) + unit e) ∧ m % 2 = 0) := by
  have hmu : unit e ≤ m * unit e := Nat.le_mul_of_pos_left _ (Nat.pos_of_ne_zero hm)
  -- The ends of the interval are four times a midpoint.
  have hlow : ((Interval.around f m e).low : ℚ)
      = 2 * ((m * unit e : Nat) - below f m e + (m * unit e : Nat)) := by
    rw [Interval.around, below]
    simp only [Bool.and_eq_true, decide_eq_true_eq]
    split
    · rw [Nat.cast_sub (by omega), Nat.cast_mul 4]
      ring
    · rw [Nat.cast_sub (by omega), Nat.cast_mul 4, Nat.cast_mul 2]
      ring
  have hhigh : ((Interval.around f m e).high : ℚ)
      = 2 * ((m * unit e : Nat) + ((m * unit e : Nat) + unit e)) := by
    rw [Interval.around]
    push_cast
    ring
  have hclosed : (Interval.around f m e).closed = true ↔ m % 2 = 0 := decide_eq_true_iff
  rw [Has, hlow, hhigh]
  split
  · next h =>
    rw [hclosed] at h
    simp only [h, and_true, ← le_iff_lt_or_eq]
    constructor <;> rintro ⟨hl, hh⟩ <;> constructor <;> linarith
  · next h =>
    rw [hclosed] at h
    simp only [h, and_false, or_false]
    constructor <;> rintro ⟨hl, hh⟩ <;> constructor <;> linarith

/-- A number is in its own interval. -/
theorem Interval.has_around (f : Format) (hm : m ≠ 0) (e : Int) :
    (Interval.around f m e).Has (m * unit e : Nat) := by
  have hbelow := below_pos f m e
  have hu : (0 : ℚ) < unit e := Nat.cast_pos.mpr (unit_pos e)
  rw [has_around_iff hm]
  constructor <;> left <;> linarith

/-- The interval is narrower below the patterns that begin a new exponent. -/
theorem narrow_iff (f : Format) (n : Nat) :
    significandOf f.fractionBits f.exponentBits n = f.hiddenBit
        ∧ f.leastExponent < placeOf f.fractionBits f.exponentBits n
      ↔ fractionOf f.fractionBits n = 0 ∧ 1 < exponentOf f.fractionBits f.exponentBits n := by
  have hfraction := f.fractionOf_lt n
  have hpow : ((Nat.pow 2 (f.exponentBits - 1) : Nat) : Int) = 2 ^ (f.exponentBits - 1) :=
    Nat.cast_pow 2 _
  have hhidden : f.hiddenBit = 2 ^ f.fractionBits := rfl
  rw [significandOf, placeOf, Format.leastExponent, hpow]
  split <;> omega

/-- The magnitude of a pattern in units. -/
theorem magnitudeOf_eq_units (f : Format) (n : Nat) : magnitudeOf f.fractionBits f.exponentBits n
    = (significandOf f.fractionBits f.exponentBits n
        * unit (placeOf f.fractionBits f.exponentBits n) : Nat)
      * 10 ^ min (placeOf f.fractionBits f.exponentBits n) 0 := by
  rw [magnitudeOf, ← unit_mul_zpow, Nat.cast_mul, mul_assoc]

theorem significandOf_ne_zero (f : Format) (hn : 0 < n) (h : n < f.sign) :
    significandOf f.fractionBits f.exponentBits n ≠ 0 := by
  intro hzero
  have hpos : 0 < magnitudeOf f.fractionBits f.exponentBits n := magnitudeOf_pos hn h
  rw [magnitudeOf, hzero, Nat.cast_zero, zero_mul] at hpos
  exact lt_irrefl 0 hpos

/-- A number of units is read as a pattern if it is in the interval around the pattern's number. -/
theorem readsAs_iff_has (hf : 0 < f.fractionBits) (hn : 0 < n) (h : n < f.infinity) :
    ReadsAs f.fractionBits f.exponentBits
        (y * 10 ^ min (placeOf f.fractionBits f.exponentBits n) 0) n
      ↔ (Interval.around f (significandOf f.fractionBits f.exponentBits n)
        (placeOf f.fractionBits f.exponentBits n)).Has y := by
  have hnext : n + 1 < 2 ^ (f.fractionBits + f.exponentBits) :=
    Nat.lt_of_le_of_lt h f.infinity_lt_sign
  have hm := significandOf_ne_zero f hn (Nat.lt_of_succ_lt hnext)
  have hten : (0 : ℚ) < 10 ^ min (placeOf f.fractionBits f.exponentBits n) 0 :=
    zpow_pos (by norm_num) _
  have hpred : magnitudeOf f.fractionBits f.exponentBits (n - 1)
      = magnitudeOf f.fractionBits f.exponentBits n
        - below f (significandOf f.fractionBits f.exponentBits n)
            (placeOf f.fractionBits f.exponentBits n)
          * 10 ^ min (placeOf f.fractionBits f.exponentBits n) 0 := by
    rw [magnitudeOf_pred hn (Nat.lt_of_succ_lt hnext), below, ← unit_mul_zpow]
    simp only [narrow_iff]
    split <;> ring
  rw [readsAs_iff hn hnext, Interval.has_around_iff hm, magnitudeOf_succ hnext, hpred,
    magnitudeOf_eq_units, ← unit_mul_zpow, ← significandOf_mod_two (w := f.exponentBits) hf n]
  -- All numbers that are compared have the power of ten as a factor.
  simp only [← mul_assoc, ← sub_mul, ← add_mul, mul_lt_mul_iff_of_pos_right hten,
    mul_left_inj' hten.ne']

end ReservoirPlot.Decimal
