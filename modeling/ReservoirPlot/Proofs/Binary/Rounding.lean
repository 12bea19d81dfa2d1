/-
ReservoirPlot/Proofs/Binary/Rounding.lean

Numbers that a format holds exactly.  The pattern `n * hiddenBit + q` denotes the
significand `q` at the exponent `leastExponent + n`, whether `q` has its hidden
bit or `n` is zero (`decode_pattern`).  So a number whose last bit is not below
the last place of the format is rounded to itself (`decode_nearest_of_le`).
-/
import Mathlib.Algebra.Group.Nat.Defs
import ReservoirPlot.Binary.Binary32

namespace ReservoirPlot

open Binary

namespace Binary.Format

variable (f : Format)

theorem hiddenBit_pos : 0 < f.hiddenBit := Nat.pow_pos (by decide)

theorem sign_eq : f.sign = Nat.pow 2 f.exponentBits * f.hiddenBit := by
  show 2 ^ (f.fractionBits + f.exponentBits) = 2 ^ f.exponentBits * 2 ^ f.fractionBits
  rw [Nat.pow_add, Nat.mul_comm]

/-- All magnitudes up to infinity are below the sign bit. -/
theorem infinity_lt_sign : f.infinity < f.sign := by
  rw [sign_eq]
  refine Nat.mul_lt_mul_of_pos_right ?_ f.hiddenBit_pos
  exact Nat.sub_lt (Nat.pow_pos (by decide)) (by decide)

/-- A pattern is taken apart into its sign and its magnitude. -/
theorem signed_div_mod (negative : Bool) {magnitude : Nat} (h : magnitude < f.sign) :
    (f.signed negative magnitude / f.sign % 2 = 1 ↔ negative = true)
      ∧ f.signed negative magnitude % f.sign = magnitude := by
  have hpos : 0 < f.sign := Nat.lt_of_le_of_lt (Nat.zero_le _) h
  cases negative with
  | false =>
    show (magnitude / f.sign % 2 = 1 ↔ false = true) ∧ magnitude % f.sign = magnitude
    rw [Nat.div_eq_of_lt h, Nat.mod_eq_of_lt h]
    exact ⟨by decide, rfl⟩
  | true =>
    show ((f.sign + magnitude) / f.sign % 2 = 1 ↔ true = true) ∧ (f.sign + magnitude) % f.sign = _
    rw [Nat.add_div_left _ hpos, Nat.div_eq_of_lt h, Nat.add_mod_left, Nat.mod_eq_of_lt h]
    exact ⟨by decide, rfl⟩

/-- The pattern `n * hiddenBit + q` denotes `q` at the exponent `leastExponent + n`: either the
hidden bit is in `q` or the number is one of the smallest. -/
theorem decode_pattern {n q : Nat} (hq : q < 2 * f.hiddenBit) (hn : n = 0 ∨ f.hiddenBit ≤ q)
    (hfin : n * f.hiddenBit + q < f.infinity) (negative : Bool) :
    f.decode (f.signed negative (n * f.hiddenBit + q))
      = .finite negative q (f.leastExponent + n) := by
  have hpos := f.hiddenBit_pos
  obtain ⟨hsign, hmagnitude⟩ :=
    f.signed_div_mod negative (Nat.lt_trans hfin f.infinity_lt_sign)
  unfold decode
  simp only [hsign, hmagnitude, Bool.decide_eq_true]
  rw [if_neg (Nat.not_lt_of_le (Nat.le_of_lt hfin)), if_neg (Nat.ne_of_lt hfin)]
  by_cases hsmall : q < f.hiddenBit
  · -- no hidden bit, hence among the smallest numbers
    obtain rfl : n = 0 := hn.resolve_right (Nat.not_le_of_lt hsmall)
    rw [Nat.zero_mul, Nat.zero_add, Nat.div_eq_of_lt hsmall, Nat.mod_eq_of_lt hsmall, if_pos rfl]
    simp
  · have hge : f.hiddenBit ≤ q := Nat.le_of_not_lt hsmall
    have hsplit : n * f.hiddenBit + q = f.hiddenBit * (n + 1) + (q - f.hiddenBit) := by
      rw [Nat.mul_succ, Nat.mul_comm]; omega
    have hrest : q - f.hiddenBit < f.hiddenBit := by omega
    rw [hsplit, Nat.mul_add_div hpos, Nat.mul_add_mod, Nat.div_eq_of_lt hrest,
      Nat.mod_eq_of_lt hrest, if_neg (Nat.succ_ne_zero n), Nat.add_sub_cancel' hge]
    rfl

/-- In units of its last place a number has no more bits than the format. -/
theorem shifted_lt {m : Nat} {e : Int} (hle : f.lastPlace m e ≤ e) :
    m * 2 ^ (e - f.lastPlace m e).toNat < 2 * f.hiddenBit := by
  have hlog : e + m.log2 - f.fractionBits ≤ f.lastPlace m e := Int.le_max_right ..
  calc m * 2 ^ (e - f.lastPlace m e).toNat
      < 2 ^ (m.log2 + 1) * 2 ^ (e - f.lastPlace m e).toNat :=
        Nat.mul_lt_mul_of_pos_right Nat.lt_log2_self (Nat.pow_pos (by decide))
    _ = 2 ^ (m.log2 + 1 + (e - f.lastPlace m e).toNat) := (Nat.pow_add ..).symm
    _ ≤ 2 ^ (f.fractionBits + 1) := Nat.pow_le_pow_right (by decide) (by omega)
    _ = 2 * f.hiddenBit := Nat.pow_succ'

/-- It has as many bits as the format unless it is among the smallest numbers. -/
theorem hiddenBit_le_shifted {m : Nat} {e : Int} (hm : m ≠ 0) (hle : f.lastPlace m e ≤ e)
    (hnorm : f.lastPlace m e ≠ f.leastExponent) :
    f.hiddenBit ≤ m * 2 ^ (e - f.lastPlace m e).toNat := by
  have hplace : f.lastPlace m e = e + m.log2 - f.fractionBits := by
    unfold lastPlace at hnorm ⊢
    omega
  calc f.hiddenBit = 2 ^ (m.log2 + (e - f.lastPlace m e).toNat) := by
        show 2 ^ f.fractionBits = _
        congr 1; omega
    _ = 2 ^ m.log2 * 2 ^ (e - f.lastPlace m e).toNat := Nat.pow_add ..
    _ ≤ m * 2 ^ (e - f.lastPlace m e).toNat := Nat.mul_le_mul_right _ (Nat.log2_self_le hm)

/-- A number whose bits all stand at or above its last place keeps them when it is rounded. -/
theorem decode_nearest_of_le {m : Nat} {e : Int} (hm : m ≠ 0) (hle : f.lastPlace m e ≤ e)
    (hfin : (f.lastPlace m e - f.leastExponent).toNat + 2 < 2 ^ f.exponentBits)
    (negative : Bool) :
    f.decode (f.nearest negative m e)
      = .finite negative (m * 2 ^ (e - f.lastPlace m e).toNat) (f.lastPlace m e) := by
  have hleast : f.leastExponent ≤ f.lastPlace m e := Int.le_max_left ..
  have hlt := f.shifted_lt hle
  have hhidden : (f.lastPlace m e - f.leastExponent).toNat = 0
      ∨ f.hiddenBit ≤ m * 2 ^ (e - f.lastPlace m e).toNat := by
    by_cases hsub : f.lastPlace m e = f.leastExponent
    · left
      rw [hsub, Int.sub_self]
      rfl
    · exact Or.inr (f.hiddenBit_le_shifted hm hle hsub)
  have hbelow : (f.lastPlace m e - f.leastExponent).toNat * f.hiddenBit
      + m * 2 ^ (e - f.lastPlace m e).toNat < f.infinity := by
    calc _ < (f.lastPlace m e - f.leastExponent).toNat * f.hiddenBit + 2 * f.hiddenBit :=
          Nat.add_lt_add_left hlt _
      _ = ((f.lastPlace m e - f.leastExponent).toNat + 2) * f.hiddenBit := (Nat.add_mul ..).symm
      _ ≤ f.infinity := Nat.mul_le_mul_right _ (Nat.le_sub_one_of_lt hfin)
  have hmagnitude : f.nearestMagnitude m e = (f.lastPlace m e - f.leastExponent).toNat
      * f.hiddenBit + m * 2 ^ (e - f.lastPlace m e).toNat := by
    rw [nearestMagnitude, if_neg hm]
    show min _ (_ + inUnits m e (f.lastPlace m e)) = _
    rw [show inUnits m e _ = _ from if_pos hle]
    exact Nat.min_eq_right (Nat.le_of_lt hbelow)
  rw [nearest, hmagnitude, f.decode_pattern hlt hhidden hbelow,
    Int.toNat_of_nonneg (Int.sub_nonneg_of_le hleast)]
  congr 1; omega

/-- A rounded number has a pattern within the width of the format. -/
theorem nearest_lt (negative : Bool) (m : Nat) (e : Int) :
    f.nearest negative m e < 2 * f.sign := by
  have hle : f.nearestMagnitude m e ≤ f.infinity := by
    unfold nearestMagnitude
    split
    · exact Nat.zero_le _
    · exact Nat.min_le_left ..
  have hlt := f.infinity_lt_sign
  unfold nearest signed
  split <;> omega

end Binary.Format

/-! ### Single precision -/

/-- Rounding to single precision and reading the bits back. -/
theorem Binary32.datum_ofDatum_finite (negative : Bool) (m : Nat) (e : Int) :
    (Binary32.ofDatum (.finite negative m e)).datum
      = single.decode (single.nearest negative m e) := by
  show single.decode (UInt32.ofNat (single.nearest negative m e)).toNat = _
  rw [UInt32.toNat_ofNat', Nat.mod_eq_of_lt]
  exact single.nearest_lt negative m e

end ReservoirPlot
