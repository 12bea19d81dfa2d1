/-
ReservoirPlot/Proofs/Binary/WholeNumbers.lean

Whole numbers in single precision and back.  A whole number of more bits than a format
has is rounded to a multiple of a power of two, a tie going to the even multiple, and
this multiple is what its pattern denotes (`exists_decode_rounded`):

    rounded m = divideToEven m (2 ^ place) * 2 ^ place

Where it comes out as the next power of two, the pattern is that of the next exponent.
So what becomes of a number on the way there and back is said by `rounded`, in whole
numbers: it keeps the order (`rounded_mono`), it keeps numbers that fit
(`rounded_of_lt`) and powers of two (`rounded_two_pow`), and it is off by at most half
of the power of two (`rounded_error`).

The way back ends in 32 bits, where a number that is too large gives the largest
(`toInt_ofIntClamp_eq`).

Main result: `Binary32.toInt_toInt32_ofInt`.
-/
import ReservoirPlot.Proofs.Binary.Value

namespace ReservoirPlot

open Binary

namespace Binary

namespace Format

/-! ### Rounded quotients -/

/-- Rounded quotients are in the order of the exact ones. -/
theorem divideToEven_mono {m n : Nat} (h : m ≤ n) (d : Nat) :
    divideToEven m d ≤ divideToEven n d := by
  rcases Nat.lt_or_eq_of_le (Nat.div_le_div_right (c := d) h) with hlt | heq
  · calc divideToEven m d ≤ m / d + 1 := by
          rcases divideToEven_eq_or m d with hm | hm <;> omega
      _ ≤ n / d := hlt
      _ ≤ divideToEven n d := by
          rcases divideToEven_eq_or n d with hn | hn <;> omega
  · -- With one whole part, the order is that of the remainders.
    have hm := Nat.div_add_mod' m d
    have hn := Nat.div_add_mod' n d
    rw [heq] at hm
    have hmod : m % d ≤ n % d := by omega
    unfold divideToEven
    rw [heq]
    split_ifs <;> omega

/-- A rounded quotient is at most half a unit away from the exact one. -/
theorem divideToEven_error (n : Nat) {d : Nat} (hd : 0 < d) :
    2 * (divideToEven n d * d) ≤ 2 * n + d ∧ 2 * n ≤ 2 * (divideToEven n d * d) + d := by
  have hn := Nat.div_add_mod' n d
  have hlt := Nat.mod_lt n hd
  have hup : (n / d + 1) * d = n / d * d + d := Nat.succ_mul ..
  unfold divideToEven
  split
  · omega
  · split
    · omega
    · -- A tie is half a unit away from both neighbours, whichever is the even one.
      rcases Nat.mod_two_eq_zero_or_one (n / d) with heven | hodd
      · rw [heven, Nat.add_zero]
        omega
      · rw [hodd]
        omega

theorem divideToEven_two_pow {c k : Nat} (h : c ≤ k) :
    divideToEven (2 ^ k) (2 ^ c) = 2 ^ (k - c) := by
  have hsplit : 2 ^ k = 2 ^ (k - c) * 2 ^ c := by rw [← Nat.pow_add, Nat.sub_add_cancel h]
  rw [hsplit, divideToEven_mul _ (Nat.two_pow_pos c)]

theorem log2_mono {m n : Nat} (h : m ≤ n) : m.log2 ≤ n.log2 := by
  rcases eq_or_ne m 0 with rfl | hm
  · exact Nat.zero_le _
  · have hn : n ≠ 0 := by omega
    exact (Nat.le_log2 hn).mpr (Nat.le_trans (Nat.log2_self_le hm) h)

/-! ### Rounded whole numbers -/

variable (f : Format)

/-- The whole number nearest to a whole number among those with as many bits as the format has,
apart from zeros at the end. -/
def rounded (m : Nat) : Nat :=
  divideToEven m (2 ^ (m.log2 - f.fractionBits)) * 2 ^ (m.log2 - f.fractionBits)

/-- A number that fits stays as it is. -/
theorem rounded_of_lt {m : Nat} (h : m < 2 * f.hiddenBit) : f.rounded m = m := by
  have hlog : m.log2 - f.fractionBits = 0 := by
    apply Nat.sub_eq_zero_of_le
    apply log2_le_of_lt
    rwa [Nat.pow_succ']
  have hone := divideToEven_mul m Nat.one_pos
  rw [Nat.mul_one] at hone
  rw [rounded, hlog, Nat.pow_zero, Nat.mul_one, hone]

/-- A power of two stays as it is. -/
theorem rounded_two_pow (k : Nat) : f.rounded (2 ^ k) = 2 ^ k := by
  rw [rounded, Nat.log2_two_pow, divideToEven_two_pow (Nat.sub_le k _), ← Nat.pow_add,
    Nat.sub_add_cancel (Nat.sub_le k _)]

/-- Below a power of two, a number is not rounded above it. -/
theorem rounded_le_two_pow {m k : Nat} (h : m < 2 ^ k) : f.rounded m ≤ 2 ^ k := by
  have hplace : m.log2 - f.fractionBits ≤ k := by
    apply Nat.le_trans (Nat.sub_le ..)
    apply log2_le_of_lt
    exact Nat.lt_trans h (Nat.pow_lt_pow_succ Nat.one_lt_two)
  calc f.rounded m
      ≤ 2 ^ (k - (m.log2 - f.fractionBits)) * 2 ^ (m.log2 - f.fractionBits) := by
        rw [← divideToEven_two_pow hplace]
        exact Nat.mul_le_mul_right _ (divideToEven_mono (Nat.le_of_lt h) _)
    _ = 2 ^ k := by rw [← Nat.pow_add, Nat.sub_add_cancel hplace]

/-- A number is not rounded below its highest power of two. -/
theorem two_pow_log2_le_rounded {m : Nat} (hm : m ≠ 0) : 2 ^ m.log2 ≤ f.rounded m := by
  have hplace : m.log2 - f.fractionBits ≤ m.log2 := Nat.sub_le ..
  calc 2 ^ m.log2
      = 2 ^ (m.log2 - (m.log2 - f.fractionBits)) * 2 ^ (m.log2 - f.fractionBits) := by
        rw [← Nat.pow_add, Nat.sub_add_cancel hplace]
    _ ≤ f.rounded m := by
        rw [← divideToEven_two_pow hplace]
        exact Nat.mul_le_mul_right _ (divideToEven_mono (Nat.log2_self_le hm) _)

/-- Rounding keeps the order. -/
theorem rounded_mono {m n : Nat} (h : m ≤ n) : f.rounded m ≤ f.rounded n := by
  rcases Nat.lt_or_eq_of_le (log2_mono h) with hlt | heq
  · -- A power of two is between the two numbers, and so it is between the rounded ones.
    have hn : n ≠ 0 := by
      rintro rfl
      simp at hlt
    have hm : m < 2 ^ n.log2 :=
      Nat.lt_of_lt_of_le Nat.lt_log2_self (Nat.pow_le_pow_right Nat.two_pos hlt)
    exact Nat.le_trans (f.rounded_le_two_pow hm) (f.two_pow_log2_le_rounded hn)
  · rw [rounded, rounded, heq]
    exact Nat.mul_le_mul_right _ (divideToEven_mono h _)

/-- A number with some bits more than the format has is rounded by at most half of what these
bits may count. -/
theorem rounded_error {m k : Nat} (h : m < 2 ^ (f.fractionBits + k + 1)) :
    2 * f.rounded m ≤ 2 * m + 2 ^ k ∧ 2 * m ≤ 2 * f.rounded m + 2 ^ k := by
  have hplace : m.log2 - f.fractionBits ≤ k := by
    have := log2_le_of_lt h
    omega
  have hle : 2 ^ (m.log2 - f.fractionBits) ≤ 2 ^ k := Nat.pow_le_pow_right Nat.two_pos hplace
  obtain ⟨hup, hdown⟩ := divideToEven_error m (Nat.two_pow_pos (m.log2 - f.fractionBits))
  unfold rounded
  omega

/-! ### The pattern of a whole number -/

/-- In units of its last place, a number of more bits than the format has is rounded to one with
all bits of a significand, or to the next power of two. -/
theorem divideToEven_bounds {m : Nat} (h : f.fractionBits ≤ m.log2) (hm : m ≠ 0) :
    f.hiddenBit ≤ divideToEven m (2 ^ (m.log2 - f.fractionBits))
      ∧ divideToEven m (2 ^ (m.log2 - f.fractionBits)) ≤ 2 * f.hiddenBit := by
  have hbelow := divideToEven_mono (Nat.log2_self_le hm) (2 ^ (m.log2 - f.fractionBits))
  have habove := divideToEven_mono (Nat.le_of_lt (Nat.lt_log2_self (n := m)))
    (2 ^ (m.log2 - f.fractionBits))
  rw [divideToEven_two_pow (by omega), Nat.sub_sub_self h] at hbelow
  rw [divideToEven_two_pow (by omega),
    show m.log2 + 1 - (m.log2 - f.fractionBits) = f.fractionBits + 1 by omega,
    Nat.pow_succ'] at habove
  exact ⟨hbelow, habove⟩

/-- A significand of one bit more is a power of two, and it carries into the exponent. -/
theorem exists_decode_carried {n q : Nat} (hlow : f.hiddenBit ≤ q) (hhigh : q ≤ 2 * f.hiddenBit)
    (hfin : n + 3 < 2 ^ f.exponentBits) (negative : Bool) :
    n * f.hiddenBit + q < f.infinity ∧
    ∃ q' k, f.decode (f.signed negative (n * f.hiddenBit + q)) = .finite negative q' k
      ∧ scaled q' k = scaled q (f.leastExponent + n) := by
  have hpos := f.hiddenBit_pos
  have hbelow : n * f.hiddenBit + q < f.infinity := by
    calc n * f.hiddenBit + q
        ≤ n * f.hiddenBit + 2 * f.hiddenBit := Nat.add_le_add_left hhigh _
      _ = (n + 2) * f.hiddenBit := (Nat.add_mul ..).symm
      _ < (2 ^ f.exponentBits - 1) * f.hiddenBit := Nat.mul_lt_mul_of_pos_right (by omega) hpos
  refine ⟨hbelow, ?_⟩
  rcases Nat.lt_or_eq_of_le hhigh with hlt | rfl
  · exact ⟨q, _, f.decode_pattern hlt (.inr hlow) hbelow negative, rfl⟩
  · -- As a pattern this is the hidden bit alone, at the next exponent.
    have hcarry : n * f.hiddenBit + 2 * f.hiddenBit = (n + 1) * f.hiddenBit + f.hiddenBit := by
      rw [← Nat.succ_mul, ← Nat.add_mul]
    rw [hcarry] at hbelow ⊢
    refine ⟨f.hiddenBit, _, f.decode_pattern (by omega) (.inr (Nat.le_refl _)) hbelow negative, ?_⟩
    have hdouble := scaled_mul_two_pow f.hiddenBit 1 (f.leastExponent + n)
    rw [Nat.pow_one, Nat.mul_comm] at hdouble
    rw [hdouble]
    congr 1; omega

/-- The pattern of the number nearest to a whole number denotes the rounded number. -/
theorem exists_decode_rounded {m : Nat} (hleast : f.leastExponent ≤ 0)
    (hfin : (m.log2 - f.leastExponent).toNat + 3 < 2 ^ f.exponentBits) (negative : Bool) :
    ∃ q k, f.decode (f.nearest negative m 0) = .finite negative q k
      ∧ scaled q k = scaled (f.rounded m) 0 := by
  rcases Nat.lt_or_ge m (2 * f.hiddenBit) with hlt | hge
  · rw [f.rounded_of_lt hlt]
    exact f.exists_decode_nearest hlt hleast (by omega) negative
  · -- The last place is above the ones, so the number is divided and rounded there.
    have hm : m ≠ 0 := by
      have := f.hiddenBit_pos
      omega
    have hlog : f.fractionBits + 1 ≤ m.log2 := by
      rw [Nat.le_log2 hm, Nat.pow_succ']
      exact hge
    have hplace : f.lastPlace m 0 = (m.log2 - f.fractionBits : Nat) := by
      rw [lastPlace]
      omega
    obtain ⟨hlow, hhigh⟩ := f.divideToEven_bounds (by omega) hm
    obtain ⟨hbelow, q, k, hdecode, hscaled⟩ := f.exists_decode_carried hlow hhigh
      (n := ((m.log2 - f.fractionBits : Nat) - f.leastExponent).toNat) (by omega) negative
    have hunits : inUnits m 0 (m.log2 - f.fractionBits : Nat)
        = divideToEven m (2 ^ (m.log2 - f.fractionBits)) := by
      rw [inUnits, if_neg (by omega), Int.sub_zero, Int.toNat_natCast]
      rfl
    have hnearest : f.nearest negative m 0
        = f.signed negative (((m.log2 - f.fractionBits : Nat) - f.leastExponent).toNat
            * f.hiddenBit + divideToEven m (2 ^ (m.log2 - f.fractionBits))) := by
      rw [nearest, nearestMagnitude, if_neg hm, hplace]
      show f.signed negative (min _ (_ + inUnits _ _ _)) = _
      rw [hunits, Nat.min_eq_right (Nat.le_of_lt hbelow)]
    refine ⟨q, k, hnearest ▸ hdecode, ?_⟩
    rw [hscaled, rounded, scaled_mul_two_pow]
    congr 1; omega

/-! ### Rounded integers -/

/-- An integer is rounded as its magnitude is. -/
def roundedInt (n : Int) : Int :=
  if n < 0 then -f.rounded n.natAbs else f.rounded n.natAbs

theorem roundedInt_of_natAbs_lt {n : Int} (h : n.natAbs < 2 * f.hiddenBit) :
    f.roundedInt n = n := by
  rw [roundedInt, f.rounded_of_lt h]
  split <;> omega

theorem roundedInt_of_natAbs_eq {n : Int} {k : Nat} (h : n.natAbs = 2 ^ k) :
    f.roundedInt n = n := by
  rw [roundedInt, h, rounded_two_pow, ← h]
  split <;> omega

theorem roundedInt_mono {m n : Int} (h : m ≤ n) : f.roundedInt m ≤ f.roundedInt n := by
  rw [roundedInt, roundedInt]
  rcases lt_or_ge m 0 with hm | hm <;> rcases lt_or_ge n 0 with hn | hn
  · -- Of two negative numbers the lower one has the greater magnitude.
    have := f.rounded_mono (m := n.natAbs) (n := m.natAbs) (by omega)
    rw [if_pos hm, if_pos hn]
    omega
  · rw [if_pos hm, if_neg (by omega)]
    omega
  · omega
  · have := f.rounded_mono (m := m.natAbs) (n := n.natAbs) (by omega)
    rw [if_neg (by omega), if_neg (by omega)]
    omega

theorem roundedInt_error {n : Int} {k : Nat} (h : n.natAbs < 2 ^ (f.fractionBits + k + 1)) :
    2 * |f.roundedInt n - n| ≤ 2 ^ k := by
  obtain ⟨hup, hdown⟩ := f.rounded_error h
  have hup' : (2 * f.rounded n.natAbs : Int) ≤ 2 * n.natAbs + 2 ^ k := by exact_mod_cast hup
  have hdown' : (2 * n.natAbs : Int) ≤ 2 * f.rounded n.natAbs + 2 ^ k := by exact_mod_cast hdown
  rw [abs_eq_max_neg, roundedInt]
  split <;> omega

end Format

/-! ### Truncation -/

/-- A number that is whole is truncated to itself, however it is written. -/
theorem Datum.truncate_of_scaled_eq {q n : Nat} {k : Int} (h : scaled q k = scaled n 0)
    (negative : Bool) : Datum.truncate negative q k = if negative then -(n : Int) else n := by
  have hmagnitude : (if 0 ≤ k then q * 2 ^ k.toNat else q / 2 ^ (-k).toNat) = n := by
    -- The significand has too few zeros at its end, or too many.
    rcases Int.le_total 0 k with hk | hk
    · rw [if_pos hk, eq_mul_of_scaled_eq h.symm hk, Int.sub_zero]
    · rw [eq_mul_of_scaled_eq h hk, Int.zero_sub]
      split
      · next hk' =>
        obtain rfl : k = 0 := le_antisymm hk hk'
        simp
      · exact Nat.mul_div_cancel _ (Nat.two_pow_pos _)
  exact congrArg (fun m : Nat => if negative then -(m : Int) else m) hmagnitude

end Binary

/-! ### Single precision -/

/-- An integer that does not fit 32 bits gives the nearest one that does. -/
theorem toInt_ofIntClamp_eq (n : Int) :
    (Int32.ofIntClamp n).toInt = max (-2 ^ 31) (min n (2 ^ 31 - 1)) := by
  have hmin := Int32.toInt_minValue
  have hmax := Int32.toInt_maxValue
  rw [Int32.ofIntClamp]
  split
  · split
    · rw [Int32.toInt_ofIntLE]
      omega
    · omega
  · omega

namespace Binary32

/-- The number nearest to an integer of 32 bits is the rounded integer. -/
theorem exists_datum_ofInt {n : Int} (h : n.natAbs ≤ 2 ^ 31) : ∃ q k,
    (ofInt n).datum = .finite (n < 0) q k ∧ scaled q k = scaled (single.rounded n.natAbs) 0 := by
  have hlog : n.natAbs.log2 ≤ 31 := by
    have := Format.log2_mono h
    rwa [Nat.log2_two_pow] at this
  rw [ofInt, datum_ofDatum_finite]
  refine single.exists_decode_rounded (by decide) ?_ _
  show ((n.natAbs.log2 : Int) - (-149)).toNat + 3 < 256
  omega

/-- The number that an integer of 32 bits becomes. -/
theorem value?_ofInt {n : Int} (h : n.natAbs ≤ 2 ^ 31) :
    (ofInt n).value? = some (single.roundedInt n : ℚ) := by
  obtain ⟨q, k, hdatum, hscaled⟩ := exists_datum_ofInt h
  rw [value?, hdatum, Datum.value?, hscaled, Format.roundedInt, scaled, zpow_zero, mul_one]
  by_cases hn : n < 0
  · simp [hn]
  · simp [hn]

/-- **An integer of 32 bits comes back from single precision rounded**, and within 32 bits. -/
theorem toInt_toInt32_ofInt {n : Int} (h : n.natAbs ≤ 2 ^ 31) :
    (ofInt n).toInt32.toInt = max (-2 ^ 31) (min (single.roundedInt n) (2 ^ 31 - 1)) := by
  obtain ⟨q, k, hdatum, hscaled⟩ := exists_datum_ofInt h
  rw [toInt32, hdatum]
  show (Int32.ofIntClamp (Datum.truncate _ _ _)).toInt = _
  rw [Datum.truncate_of_scaled_eq hscaled, toInt_ofIntClamp_eq, Format.roundedInt]
  simp only [decide_eq_true_eq]

/-- An integer up to `2 ^ 24` is stored exactly and comes back. -/
theorem toInt32_ofInt_of_le {n : Int} (h : n.natAbs ≤ 2 ^ 24) : (ofInt n).toInt32.toInt = n := by
  have hrounded : single.roundedInt n = n := by
    rcases Nat.lt_or_eq_of_le h with hlt | heq
    · exact single.roundedInt_of_natAbs_lt hlt
    · exact single.roundedInt_of_natAbs_eq heq
  rw [toInt_toInt32_ofInt (by omega), hrounded]
  omega

end Binary32

end ReservoirPlot
