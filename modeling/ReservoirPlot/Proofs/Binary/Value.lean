/-
ReservoirPlot/Proofs/Binary/Value.lean

The numbers that bit patterns denote, as rationals.  `Datum.value?` is the number of
a finite datum.  Many data denote one number, since a significand may have zeros at
its end, and rounding goes by the number alone:

    m * 2 ^ e = n * 2 ^ k    gives    nearest m e = nearest n k

So what is rounded may be written with any exponent.  Written with a significand that
fits a format and an exponent within its range, a number is rounded to itself
(`exists_decode_nearest`); and the significand and the exponent that a pattern gives are
rounded back to the pattern (`nearest_of_decode`), so that a sign and a number have one
pattern at most (`eq_of_value_eq`).  The last section says this of the two formats in use.
-/
import Mathlib.Algebra.Field.Rat
import Mathlib.Algebra.Order.Field.Power
import Mathlib.Algebra.Order.Ring.Rat
import ReservoirPlot.Binary.Binary64
import ReservoirPlot.Proofs.Binary.Rounding

namespace ReservoirPlot

open Binary

namespace Binary

/-! ### Numbers of data -/

/-- The number of a significand at an exponent. -/
def scaled (m : Nat) (e : Int) : ℚ := m * 2 ^ e

/-- The number that a finite datum denotes; other data denote none. -/
def Datum.value? : Datum → Option ℚ
  | .finite negative m e => some (if negative then -scaled m e else scaled m e)
  | .infinite _ => none
  | .nan => none

/-- How the numbers of two data compare, if both denote one. -/
def Datum.compare? (a b : Datum) : Option Ordering :=
  a.value?.bind fun x => b.value?.map fun y => cmp x y

theorem scaled_mul_two_pow (m k : Nat) (e : Int) : scaled (m * 2 ^ k) e = scaled m (e + k) := by
  rw [scaled, scaled, zpow_add₀ two_ne_zero, zpow_natCast, Nat.cast_mul, Nat.cast_pow,
    Nat.cast_ofNat, mul_assoc, mul_comm (2 ^ k : ℚ)]

theorem scaled_mul_scaled (m n : Nat) (e k : Int) :
    scaled m e * scaled n k = scaled (m * n) (e + k) := by
  rw [scaled, scaled, scaled, zpow_add₀ two_ne_zero, Nat.cast_mul, mul_mul_mul_comm]

/-- Of two ways to write a number, the one with the lower exponent has zeros at the end of its
significand. -/
theorem eq_mul_of_scaled_eq {m n : Nat} {e k : Int} (h : scaled m e = scaled n k) (hle : e ≤ k) :
    m = n * 2 ^ (k - e).toNat := by
  have hsame : scaled m e = scaled (n * 2 ^ (k - e).toNat) e := by
    rw [scaled_mul_two_pow, Int.toNat_of_nonneg (Int.sub_nonneg_of_le hle), add_sub_cancel, h]
  have hpos : (2 ^ e : ℚ) ≠ 0 := zpow_ne_zero e two_ne_zero
  exact Nat.cast_injective (mul_right_cancel₀ hpos hsame)

namespace Format

variable (f : Format)

/-! ### Rounding goes by the number -/

/-- A factor on both sides does not change a rounded quotient. -/
theorem divideToEven_mul_mul (n d : Nat) {c : Nat} (hc : 0 < c) :
    divideToEven (n * c) (d * c) = divideToEven n d := by
  have hbelow : 2 * (n % d * c) < d * c ↔ 2 * (n % d) < d := by
    rw [← Nat.mul_assoc]
    exact Nat.mul_lt_mul_right hc
  have habove : d * c < 2 * (n % d * c) ↔ d < 2 * (n % d) := by
    rw [← Nat.mul_assoc]
    exact Nat.mul_lt_mul_right hc
  simp only [divideToEven, Nat.mul_mod_mul_right, Nat.mul_div_mul_right _ _ hc, hbelow, habove]

theorem log2_le_of_lt {m k : Nat} (h : m < 2 ^ (k + 1)) : m.log2 ≤ k := by
  rcases eq_or_ne m 0 with rfl | hm
  · exact Nat.zero_le _
  · exact Nat.le_of_lt_succ ((Nat.log2_lt hm).mpr h)

theorem log2_mul_two_pow {m : Nat} (hm : m ≠ 0) (k : Nat) : (m * 2 ^ k).log2 = m.log2 + k := by
  have hpos : 0 < 2 ^ k := Nat.two_pow_pos k
  refine (Nat.log2_eq_iff (Nat.mul_ne_zero hm hpos.ne')).mpr ⟨?_, ?_⟩
  · rw [Nat.pow_add]
    exact Nat.mul_le_mul_right _ (Nat.log2_self_le hm)
  · rw [Nat.add_right_comm, Nat.pow_add]
    exact Nat.mul_lt_mul_of_pos_right Nat.lt_log2_self hpos

/-- Zeros at the end of a significand may be put into the exponent. -/
theorem inUnits_mul_two_pow (m k : Nat) (e place : Int) :
    inUnits (m * 2 ^ k) e place = inUnits m (e + k) place := by
  -- The last place is among the zeros, above them or below them.
  rcases lt_or_ge e place with habove | hbelow
  · rw [inUnits, inUnits, if_neg (by omega)]
    show divideToEven (m * 2 ^ k) (2 ^ _) = _
    split
    · next hamong =>
      have hsplit : m * 2 ^ k = m * 2 ^ (e + k - place).toNat * 2 ^ (place - e).toNat := by
        rw [Nat.mul_assoc, ← Nat.pow_add]
        congr 2; omega
      rw [hsplit, divideToEven_mul _ (Nat.two_pow_pos _)]
      rfl
    · have hsplit : 2 ^ (place - e).toNat = 2 ^ (place - (e + k)).toNat * 2 ^ k := by
        rw [← Nat.pow_add]
        congr 1; omega
      rw [hsplit, divideToEven_mul_mul _ _ (Nat.two_pow_pos _)]
      rfl
  · rw [inUnits, inUnits, if_pos hbelow, if_pos (by omega),
      show (e + k - place).toNat = k + (e - place).toNat by omega]
    show m * 2 ^ k * 2 ^ _ = m * 2 ^ _
    rw [Nat.pow_add, Nat.mul_assoc]

theorem nearest_mul_two_pow (negative : Bool) (m k : Nat) (e : Int) :
    f.nearest negative (m * 2 ^ k) e = f.nearest negative m (e + k) := by
  rcases eq_or_ne m 0 with rfl | hm
  · rw [Nat.zero_mul]
    rfl
  · have hplace : f.lastPlace (m * 2 ^ k) e = f.lastPlace m (e + k) := by
      rw [lastPlace, lastPlace, log2_mul_two_pow hm]
      congr 1; omega
    have hne : m * 2 ^ k ≠ 0 := Nat.mul_ne_zero hm (Nat.two_pow_pos k).ne'
    rw [nearest, nearest, nearestMagnitude, nearestMagnitude, if_neg hm, if_neg hne]
    simp only [hplace, inUnits_mul_two_pow]

/-- **Rounding goes by the number**, however it is written. -/
theorem nearest_congr (negative : Bool) {m n : Nat} {e k : Int} (h : scaled m e = scaled n k) :
    f.nearest negative m e = f.nearest negative n k := by
  rcases Int.le_total e k with hle | hle
  · rw [eq_mul_of_scaled_eq h hle, nearest_mul_two_pow]
    congr 1; omega
  · rw [eq_mul_of_scaled_eq h.symm hle, nearest_mul_two_pow]
    congr 1; omega

/-! ### Numbers that a format holds -/

/-- A significand that fits has its last place at its exponent or below. -/
theorem lastPlace_le {m : Nat} {e : Int} (hm : m < 2 * f.hiddenBit) (he : f.leastExponent ≤ e) :
    f.lastPlace m e ≤ e := by
  have hlog : m.log2 ≤ f.fractionBits := by
    apply log2_le_of_lt
    rwa [Nat.pow_succ']
  rw [lastPlace]
  omega

/-- A number whose significand fits and whose exponent is in range is rounded to itself. -/
theorem exists_decode_nearest {m : Nat} {e : Int} (hm : m < 2 * f.hiddenBit)
    (he : f.leastExponent ≤ e) (hfin : (e - f.leastExponent).toNat + 2 < 2 ^ f.exponentBits)
    (negative : Bool) : ∃ n k, f.decode (f.nearest negative m e) = .finite negative n k
      ∧ scaled n k = scaled m e := by
  rcases eq_or_ne m 0 with rfl | hne
  · have hinfinity : 0 < f.infinity :=
      Nat.mul_pos (Nat.sub_pos_of_lt (Nat.lt_of_le_of_lt (Nat.le_add_left 1 _) hfin))
        f.hiddenBit_pos
    have hzero : f.nearest negative 0 e = f.signed negative (0 * f.hiddenBit + 0) := by
      rw [Nat.zero_mul]
      rfl
    rw [hzero]
    refine ⟨0, _, f.decode_pattern (Nat.mul_pos two_pos f.hiddenBit_pos) (.inl rfl) ?_ negative, ?_⟩
    · rwa [Nat.zero_mul]
    · rw [scaled, scaled, Nat.cast_zero, zero_mul, zero_mul]
  · have hplace := f.lastPlace_le hm he
    have hleast : f.leastExponent ≤ f.lastPlace m e := Int.le_max_left ..
    refine ⟨_, _, f.decode_nearest_of_le hne hplace (by omega) negative, ?_⟩
    rw [scaled_mul_two_pow, Int.toNat_of_nonneg (Int.sub_nonneg_of_le hplace), add_sub_cancel]

/-! ### Patterns from numbers -/

/-- What a finite pattern says: its significand has the hidden bit unless its exponent is the least,
and both stand in the pattern behind the sign. -/
theorem of_decode_eq_finite {bits : Nat} (hbits : bits < 2 * f.sign) {negative : Bool} {m : Nat}
    {e : Int} (h : f.decode bits = .finite negative m e) :
    ∃ n : Nat, e = f.leastExponent + n ∧ m < 2 * f.hiddenBit ∧ (n = 0 ∨ f.hiddenBit ≤ m)
      ∧ n * f.hiddenBit + m < f.infinity
      ∧ bits = f.signed negative (n * f.hiddenBit + m) := by
  have hpos := f.hiddenBit_pos
  have hfraction := Nat.mod_lt (bits % f.sign) hpos
  have hdivMod := Nat.div_add_mod' (bits % f.sign) f.hiddenBit
  -- The sign is the one bit above the rest.
  have hsigned : bits = f.signed (decide (bits / f.sign % 2 = 1)) (bits % f.sign) := by
    have hquotient : bits / f.sign < 2 := Nat.div_lt_of_lt_mul (by rwa [Nat.mul_comm])
    have hsplit := Nat.div_add_mod' bits f.sign
    rcases Nat.lt_succ_iff_lt_or_eq.mp hquotient with hzero | hone
    · rw [Nat.lt_one_iff.mp hzero, Nat.zero_mul, Nat.zero_add] at hsplit
      rw [Nat.lt_one_iff.mp hzero]
      exact hsplit.symm
    · rw [hone, Nat.one_mul] at hsplit
      rw [hone]
      exact hsplit.symm
  unfold decode at h
  dsimp only at h
  split at h
  · cases h
  · split at h
    · cases h
    · split at h
      · next hbiased =>
        cases h
        rw [hbiased, Nat.zero_mul, Nat.zero_add] at hdivMod
        refine ⟨0, by omega, by omega, .inl rfl, by omega, ?_⟩
        rw [Nat.zero_mul, Nat.zero_add, hdivMod]
        exact hsigned
      · next hbiased =>
        cases h
        obtain ⟨n, hn⟩ := Nat.exists_eq_succ_of_ne_zero hbiased
        rw [hn, Nat.succ_mul] at hdivMod
        refine ⟨n, by omega, by omega, .inr (Nat.le_add_right ..), by omega, ?_⟩
        rw [← Nat.add_assoc, hdivMod]
        exact hsigned

/-- What a finite pattern denotes is rounded back to the pattern. -/
theorem nearest_of_decode {bits : Nat} (hbits : bits < 2 * f.sign) {negative : Bool} {m : Nat}
    {e : Int} (h : f.decode bits = .finite negative m e) : f.nearest negative m e = bits := by
  obtain ⟨n, rfl, hm, hhidden, hbelow, hpattern⟩ := f.of_decode_eq_finite hbits h
  rw [hpattern, nearest, nearestMagnitude]
  congr 1
  split
  · next hzero =>
    obtain rfl : n = 0 := hhidden.resolve_right (by have := f.hiddenBit_pos; omega)
    omega
  · next hne =>
    -- The last place is where the pattern has it, so there is nothing to round.
    have hlast : f.lastPlace m (f.leastExponent + n) = f.leastExponent + n := by
      refine Int.le_antisymm (f.lastPlace_le hm (by omega)) ?_
      rcases hhidden with rfl | hge
      · rw [lastPlace]
        omega
      · have hlog : f.fractionBits ≤ m.log2 := (Nat.le_log2 hne).mpr hge
        rw [lastPlace]
        omega
    rw [hlast]
    show min _ (_ + inUnits m _ _) = _
    rw [inUnits, if_pos (Int.le_refl _), Int.sub_self, Int.toNat_zero,
      show (f.leastExponent + n - f.leastExponent).toNat = n by omega]
    show min _ (_ + m * 2 ^ 0) = _
    rw [Nat.pow_zero, Nat.mul_one, Nat.min_eq_right (Nat.le_of_lt hbelow)]

/-- A sign and a number have one pattern at most. -/
theorem eq_of_value_eq {bits bits' : Nat} (hbits : bits < 2 * f.sign) (hbits' : bits' < 2 * f.sign)
    {negative : Bool} {m n : Nat} {e k : Int} (h : f.decode bits = .finite negative m e)
    (h' : f.decode bits' = .finite negative n k) (hvalue : scaled m e = scaled n k) :
    bits = bits' := by
  rw [← f.nearest_of_decode hbits h, ← f.nearest_of_decode hbits' h', f.nearest_congr _ hvalue]

end Format

end Binary

/-! ### Single and double precision -/

namespace Binary32

/-- The number that the bits denote, if they denote one. -/
def value? (x : Binary32) : Option ℚ := x.datum.value?

/-- A number is finite if the bits of its exponent are not all set. -/
def IsFinite (x : Binary32) : Prop := x.bits.toNat / 2 ^ 23 % 2 ^ 8 ≠ 2 ^ 8 - 1

/-- A finite number has a significand of 24 bits and one of 254 exponents. -/
theorem datum_of_isFinite {x : Binary32} (h : x.IsFinite) : ∃ negative m, ∃ n : Nat,
    x.datum = .finite negative m (-149 + n) ∧ m < 2 ^ 24 ∧ n < 254 := by
  have hbits : x.bits.toNat < 2 * single.sign := x.bits.toNat_lt
  obtain ⟨negative, m, e, hdatum⟩ : ∃ negative m e, x.datum = .finite negative m e := by
    have hfield : x.bits.toNat % 2 ^ 31 < 255 * 2 ^ 23 := by
      unfold IsFinite at h
      omega
    have hmagnitude : x.bits.toNat % single.sign < single.infinity := hfield
    unfold datum Format.decode
    dsimp only
    rw [if_neg (Nat.not_lt_of_lt hmagnitude), if_neg (Nat.ne_of_lt hmagnitude)]
    split
    · exact ⟨_, _, _, rfl⟩
    · exact ⟨_, _, _, rfl⟩
  obtain ⟨n, rfl, hm, hhidden, hbelow, -⟩ := single.of_decode_eq_finite hbits hdatum
  refine ⟨negative, m, n, hdatum, hm, ?_⟩
  have hinfinity : n * 2 ^ 23 + m < 255 * 2 ^ 23 := hbelow
  have hnormal : n = 0 ∨ 2 ^ 23 ≤ m := hhidden
  omega

/-- A sign and a number have one pattern at most. -/
theorem eq_of_scaled_eq {x y : Binary32} {negative : Bool} {m n : Nat} {e k : Int}
    (hx : x.datum = .finite negative m e) (hy : y.datum = .finite negative n k)
    (h : scaled m e = scaled n k) : x = y := by
  have hbits := single.eq_of_value_eq x.bits.toNat_lt y.bits.toNat_lt hx hy h
  exact congrArg Binary32.mk (UInt32.toNat_inj.mp hbits)

end Binary32

namespace Binary64

/-- The number that the bits denote, if they denote one. -/
def value? (x : Binary64) : Option ℚ := x.datum.value?

/-- Rounding to double precision and reading the bits back. -/
theorem datum_ofDatum_finite (negative : Bool) (m : Nat) (e : Int) :
    (ofDatum (.finite negative m e)).datum = double.decode (double.nearest negative m e) := by
  show double.decode (UInt64.ofNat (double.nearest negative m e)).toNat = _
  rw [UInt64.toNat_ofNat', Nat.mod_eq_of_lt]
  exact double.nearest_lt negative m e

/-- A number with a significand of 53 bits and a small exponent is stored exactly. -/
theorem exists_datum_ofDatum {m : Nat} {e : Int} (hm : m < 2 ^ 53) (hlow : -1074 ≤ e)
    (hhigh : e ≤ 971) (negative : Bool) : ∃ n k,
      (ofDatum (.finite negative m e)).datum = .finite negative n k ∧ scaled n k = scaled m e := by
  rw [datum_ofDatum_finite]
  refine double.exists_decode_nearest hm hlow ?_ negative
  show (e - (-1074)).toNat + 2 < 2048
  omega

end Binary64

end ReservoirPlot
