/-
ReservoirPlot/Proofs/Binary/ReadsBack.lean

Which numbers are read as a pattern.  A number is read as the pattern of the nearest
magnitude, and if two of them are equally near, as the even one of their patterns
(`ReadsAs`).  The magnitudes grow with the patterns, each by one last place of the
one before,

    magnitude (n + 1) = magnitude n + 2 ^ place n

so only the two patterns beside `n` can take a number away from it: a number is read
as `n` if it lies between the midpoints to these two, a midpoint itself counting for
even `n` alone.

Main result: `readsAs_iff`.
-/
import Mathlib.Algebra.Order.Ring.Abs
import Mathlib.Tactic.Ring
import ReservoirPlot.Proofs.Binary.Patterns

namespace ReservoirPlot.Binary

variable {p w m n : Nat} {v : ℚ}

/-! ### The next pattern -/

theorem exponentOf_of_lt (h : n < 2 ^ (p + w)) : exponentOf p w n = n / 2 ^ p := by
  rw [Nat.pow_add] at h
  exact Nat.mod_eq_of_lt (Nat.div_lt_of_lt_mul h)

/-- Behind the last fraction of an exponent comes the first one of the next exponent. -/
theorem parts_of_dvd (h : n + 1 < 2 ^ (p + w)) (hcarry : 2 ^ p ∣ n + 1) :
    exponentOf p w (n + 1) = exponentOf p w n + 1 ∧ fractionOf p (n + 1) = 0
      ∧ fractionOf p n + 1 = 2 ^ p := by
  have hparts : 2 ^ p * (n / 2 ^ p) + n % 2 ^ p = n := Nat.div_add_mod n (2 ^ p)
  have hparts' : 2 ^ p * ((n + 1) / 2 ^ p) = n + 1 := Nat.mul_div_cancel' hcarry
  rw [exponentOf_of_lt h, exponentOf_of_lt (Nat.lt_of_succ_lt h), Nat.succ_div_of_dvd hcarry]
  refine ⟨rfl, Nat.mod_eq_zero_of_dvd hcarry, ?_⟩
  rw [Nat.succ_div_of_dvd hcarry, Nat.mul_succ] at hparts'
  rw [fractionOf]
  omega

/-- Behind any other fraction comes the next one. -/
theorem parts_of_not_dvd (h : n + 1 < 2 ^ (p + w)) (hcarry : ¬ 2 ^ p ∣ n + 1) :
    exponentOf p w (n + 1) = exponentOf p w n ∧ fractionOf p (n + 1) = fractionOf p n + 1 := by
  have hparts : 2 ^ p * (n / 2 ^ p) + n % 2 ^ p = n := Nat.div_add_mod n (2 ^ p)
  have hparts' : 2 ^ p * ((n + 1) / 2 ^ p) + (n + 1) % 2 ^ p = n + 1 :=
    Nat.div_add_mod (n + 1) (2 ^ p)
  rw [exponentOf_of_lt h, exponentOf_of_lt (Nat.lt_of_succ_lt h), Nat.succ_div_of_not_dvd hcarry]
  refine ⟨rfl, ?_⟩
  rw [Nat.succ_div_of_not_dvd hcarry] at hparts'
  rw [fractionOf, fractionOf]
  omega

/-- The last place of a pattern is that of the one before, or the next one if the exponent has grown
by one, which among the smallest patterns makes no difference. -/
theorem placeOf_succ (h : n + 1 < 2 ^ (p + w)) : placeOf p w (n + 1)
    = if fractionOf p (n + 1) = 0 ∧ 1 < exponentOf p w (n + 1) then placeOf p w n + 1
      else placeOf p w n := by
  by_cases hcarry : 2 ^ p ∣ n + 1
  · obtain ⟨hexponent, hfraction, -⟩ := parts_of_dvd h hcarry
    rw [placeOf, placeOf, hfraction, hexponent, if_neg (Nat.succ_ne_zero _)]
    -- The exponents 0 and 1 have the same last place.
    by_cases hzero : exponentOf p w n = 0
    · rw [if_neg (by omega), if_pos hzero, hzero]
      norm_num
    · rw [if_pos ⟨rfl, by omega⟩, if_neg hzero, Nat.cast_succ]
      ring
  · obtain ⟨hexponent, hfraction⟩ := parts_of_not_dvd h hcarry
    rw [hfraction, if_neg fun h => Nat.succ_ne_zero _ h.1, placeOf, placeOf, hexponent]

/-- From one pattern to the next the magnitude grows by one last place. -/
theorem magnitudeOf_succ (h : n + 1 < 2 ^ (p + w)) :
    magnitudeOf p w (n + 1) = magnitudeOf p w n + 2 ^ placeOf p w n := by
  have hplace := placeOf_succ h
  by_cases hcarry : 2 ^ p ∣ n + 1
  · obtain ⟨hexponent, hfraction, hlast⟩ := parts_of_dvd h hcarry
    have hq : (fractionOf p n : ℚ) + 1 = 2 ^ p := by exact_mod_cast hlast
    rw [hfraction, hexponent] at hplace
    rw [magnitudeOf, magnitudeOf, hplace, significandOf, significandOf, hexponent, hfraction,
      if_neg (Nat.succ_ne_zero _)]
    by_cases hzero : exponentOf p w n = 0
    · rw [if_neg (by omega), if_pos hzero, ← hlast]
      push_cast
      ring
    · rw [if_pos ⟨rfl, by omega⟩, if_neg hzero, zpow_add_one₀ two_ne_zero]
      push_cast
      rw [← hq]
      ring
  · obtain ⟨hexponent, hfraction⟩ := parts_of_not_dvd h hcarry
    rw [hfraction, if_neg fun h => Nat.succ_ne_zero _ h.1] at hplace
    rw [magnitudeOf, magnitudeOf, hplace, significandOf, significandOf, hexponent, hfraction]
    split <;> push_cast <;> ring

/-- To the pattern before it is one last place, or half of one if this pattern begins a new
exponent. -/
theorem magnitudeOf_pred (hn : 0 < n) (h : n < 2 ^ (p + w)) : magnitudeOf p w (n - 1)
    = magnitudeOf p w n - if fractionOf p n = 0 ∧ 1 < exponentOf p w n then 2 ^ placeOf p w n / 2
      else 2 ^ placeOf p w n := by
  obtain ⟨n, rfl⟩ := Nat.exists_eq_succ_of_ne_zero hn.ne'
  have hplace := placeOf_succ h
  rw [Nat.succ_eq_add_one, Nat.add_sub_cancel, magnitudeOf_succ h]
  split
  · next hcarry =>
    rw [if_pos hcarry] at hplace
    rw [hplace, zpow_add_one₀ two_ne_zero]
    ring
  · next hsame =>
    rw [if_neg hsame] at hplace
    rw [hplace]
    ring

/-- A pattern is even as its significand is. -/
theorem significandOf_mod_two (hp : 0 < p) (n : Nat) : significandOf p w n % 2 = n % 2 := by
  have htwo : 2 ∣ 2 ^ p := dvd_pow_self 2 hp.ne'
  have hfraction : fractionOf p n % 2 = n % 2 := Nat.mod_mod_of_dvd n htwo
  rw [significandOf]
  split
  · exact hfraction
  · rw [Nat.add_mod, Nat.mod_eq_zero_of_dvd htwo, Nat.zero_add, Nat.mod_mod, hfraction]

theorem magnitudeOf_lt (h : m < n) (hn : n < 2 ^ (p + w)) :
    magnitudeOf p w m < magnitudeOf p w n := by
  induction n, h using Nat.le_induction with
  | base =>
    rw [magnitudeOf_succ hn]
    exact lt_add_of_pos_right _ (zpow_pos two_pos _)
  | succ n _ ih =>
    rw [magnitudeOf_succ hn]
    exact lt_add_of_lt_of_pos (ih (Nat.lt_of_succ_lt hn)) (zpow_pos two_pos _)

theorem magnitudeOf_le (h : m ≤ n) (hn : n < 2 ^ (p + w)) :
    magnitudeOf p w m ≤ magnitudeOf p w n := by
  rcases Nat.eq_or_lt_of_le h with rfl | hlt
  · exact le_rfl
  · exact (magnitudeOf_lt hlt hn).le

theorem magnitudeOf_pos (hn : 0 < n) (h : n < 2 ^ (p + w)) : 0 < magnitudeOf p w n :=
  (mul_nonneg (Nat.cast_nonneg _) (zpow_nonneg zero_le_two _)).trans_lt (magnitudeOf_lt hn h)

/-! ### The nearest pattern -/

/-- Of all magnitudes that of the pattern `n` is the nearest to a number; if another one is equally
near, `n` is even.  What is beyond the last finite magnitude is compared with the next one that there
would be, whose pattern is that of infinity. -/
def ReadsAs (p w : Nat) (v : ℚ) (n : Nat) : Prop :=
  ∀ other < 2 ^ (p + w), other ≠ n →
    |v - magnitudeOf p w n| < |v - magnitudeOf p w other|
      ∨ |v - magnitudeOf p w n| = |v - magnitudeOf p w other| ∧ n % 2 = 0

section

variable {a b : ℚ}

theorem abs_sub_lt_iff_lt_midpoint (h : a < b) : |v - a| < |v - b| ↔ 2 * v < a + b := by
  have hsquares : (v - b) ^ 2 - (v - a) ^ 2 = (b - a) * (a + b - 2 * v) := by ring
  rw [← sq_lt_sq, ← sub_pos, hsquares, mul_pos_iff_of_pos_left (sub_pos.mpr h), sub_pos]

theorem abs_sub_lt_iff_midpoint_lt (h : a < b) : |v - b| < |v - a| ↔ a + b < 2 * v := by
  have hsquares : (v - a) ^ 2 - (v - b) ^ 2 = (b - a) * (2 * v - (a + b)) := by ring
  rw [← sq_lt_sq, ← sub_pos, hsquares, mul_pos_iff_of_pos_left (sub_pos.mpr h), sub_pos]

theorem abs_sub_eq_iff_eq_midpoint (h : a < b) : |v - a| = |v - b| ↔ 2 * v = a + b := by
  have hsquares : (v - b) ^ 2 - (v - a) ^ 2 = (b - a) * (a + b - 2 * v) := by ring
  rw [← sq_eq_sq_iff_abs_eq_abs, eq_comm, ← sub_eq_zero, hsquares, mul_eq_zero,
    or_iff_right (sub_pos.mpr h).ne', sub_eq_zero, eq_comm]

end

/-- A number is read as a pattern if it is between the midpoints to the two patterns beside it, or at
one of them and the pattern is even. -/
theorem readsAs_iff (hn : 0 < n) (h : n + 1 < 2 ^ (p + w)) : ReadsAs p w v n ↔
    (magnitudeOf p w (n - 1) + magnitudeOf p w n < 2 * v
        ∨ magnitudeOf p w (n - 1) + magnitudeOf p w n = 2 * v ∧ n % 2 = 0)
      ∧ (2 * v < magnitudeOf p w n + magnitudeOf p w (n + 1)
        ∨ 2 * v = magnitudeOf p w n + magnitudeOf p w (n + 1) ∧ n % 2 = 0) := by
  have hbefore : magnitudeOf p w (n - 1) < magnitudeOf p w n :=
    magnitudeOf_lt (Nat.pred_lt hn.ne') (Nat.lt_of_succ_lt h)
  have hnext : magnitudeOf p w n < magnitudeOf p w (n + 1) := magnitudeOf_lt n.lt_succ_self h
  constructor
  · intro hreads
    have hlow := hreads (n - 1) (by omega) (by omega)
    have hhigh := hreads (n + 1) h (by omega)
    rw [abs_sub_lt_iff_midpoint_lt hbefore, eq_comm, abs_sub_eq_iff_eq_midpoint hbefore,
      eq_comm] at hlow
    rw [abs_sub_lt_iff_lt_midpoint hnext, abs_sub_eq_iff_eq_midpoint hnext] at hhigh
    exact ⟨hlow, hhigh⟩
  · rintro ⟨hlow, hhigh⟩ other hother hne
    -- The midpoint to any other pattern is at least as far as that to the one beside `n`.
    rcases Nat.lt_or_gt_of_ne hne with hlt | hgt
    · have hfar : magnitudeOf p w other + magnitudeOf p w n
          ≤ magnitudeOf p w (n - 1) + magnitudeOf p w n :=
        add_le_add_left (magnitudeOf_le (Nat.le_sub_one_of_lt hlt) (by omega)) _
      have hless := magnitudeOf_lt hlt (Nat.lt_of_succ_lt h)
      rw [abs_sub_lt_iff_midpoint_lt hless, eq_comm, abs_sub_eq_iff_eq_midpoint hless, eq_comm]
      rcases hlow with hlow | ⟨hlow, heven⟩
      · exact .inl (hfar.trans_lt hlow)
      · exact (hfar.trans hlow.le).lt_or_eq.imp_right fun heq => ⟨heq, heven⟩
    · have hfar : magnitudeOf p w n + magnitudeOf p w (n + 1)
          ≤ magnitudeOf p w n + magnitudeOf p w other :=
        add_le_add_right (magnitudeOf_le hgt hother) _
      have hless := magnitudeOf_lt hgt hother
      rw [abs_sub_lt_iff_lt_midpoint hless, abs_sub_eq_iff_eq_midpoint hless]
      rcases hhigh with hhigh | ⟨hhigh, heven⟩
      · exact .inl (hhigh.trans_le hfar)
      · exact (hhigh.le.trans hfar).lt_or_eq.imp_right fun heq => ⟨heq, heven⟩

end ReservoirPlot.Binary
