/-
ReservoirPlot/Proofs/Decimal/Shortest.lean

The shortest decimal that reads back.  In units of the exact decimal the number is a
whole number `x`, and what reads as it is an interval around `x`.  A decimal of at most
`k + 1` digits is beside the two neighbours of `x` on the grid

    step = 10 ^ (number of digits of x - 1 - k)

or is one of them, but is never between them (`le_or_le_of_lt`): it is a point of the
grid or else below the first power of ten.  So if neither neighbour is in the interval,
no decimal of so many digits reads back; and on the first grid on which one is, no
other decimal of so many digits is nearer than the better one of the two.

Main result: `isShortest_shortest`.
-/
import Mathlib.Data.Nat.Prime.Basic
import Mathlib.Tactic.NormNum.Prime
import ReservoirPlot.Decimal.Style
import ReservoirPlot.Proofs.Decimal.Interval

namespace ReservoirPlot.Decimal

open Binary

variable {f : Format} {m n x k c : Nat} {e t : Int} {i : Interval} {tie : Tie}

/-! ### Digits -/

theorem lt_pow_length (c : Nat) : c < 10 ^ (Nat.toDigits 10 c).length :=
  (Nat.length_toDigits_le_iff (by decide) Nat.length_toDigits_pos).mp le_rfl

theorem pow_length_le (hc : c ≠ 0) : 10 ^ ((Nat.toDigits 10 c).length - 1) ≤ c := by
  rcases Nat.eq_zero_or_pos ((Nat.toDigits 10 c).length - 1) with hone | hmore
  · rw [hone]
    exact Nat.pos_of_ne_zero hc
  · by_contra hlt
    have hle := (Nat.length_toDigits_le_iff (by decide) hmore).mpr (Nat.lt_of_not_le hlt)
    omega

theorem digitChar_eq_zero_iff : ∀ c < 10, Nat.digitChar c = '0' ↔ c = 0 := by
  decide

/-- The zeros at the end of the digits are the powers of ten that divide a number. -/
theorem trailing_zeros (hc : c ≠ 0) :
    10 ^ ((Nat.toDigits 10 c).reverse.takeWhile (· = '0')).length ∣ c
      ∧ c / 10 ^ ((Nat.toDigits 10 c).reverse.takeWhile (· = '0')).length % 10 ≠ 0 := by
  induction c using Nat.strongRecOn with
  | ind c ih =>
    rcases Nat.lt_or_ge c 10 with hlt | hge
    · have hdigit : Nat.digitChar c ≠ '0' := fun h => hc ((digitChar_eq_zero_iff c hlt).mp h)
      simp [Nat.toDigits_of_lt_base hlt, hdigit, Nat.mod_eq_of_lt hlt, hc]
    · have hlast := digitChar_eq_zero_iff (c % 10) (Nat.mod_lt c (by decide))
      rw [Nat.toDigits_of_base_le (by decide) hge, List.reverse_append, List.reverse_singleton,
        List.singleton_append]
      by_cases hzero : c % 10 = 0
      · obtain ⟨hdvd, hmod⟩ := ih (c / 10) (by omega) (by omega)
        rw [List.takeWhile_cons_of_pos (by simpa using hlast.mpr hzero), List.length_cons,
          Nat.pow_succ', ← Nat.div_div_eq_div_mul]
        exact ⟨(Nat.mul_dvd_mul_left 10 hdvd).trans (dvd_of_eq (by omega)), hmod⟩
      · rw [List.takeWhile_cons_of_neg (by simpa using mt hlast.mp hzero), List.length_nil,
          Nat.pow_zero, Nat.div_one]
        exact ⟨one_dvd c, hzero⟩

/-- A decimal that is trimmed is the same number, and does not end in a zero. -/
theorem exists_trimmed {r : Nat} (hr : r ≠ 0) (t : Int) : ∃ a zeros : Nat,
    trimmed ⟨r, t⟩ = ⟨a, t + zeros⟩ ∧ a * 10 ^ zeros = r ∧ a % 10 ≠ 0 := by
  obtain ⟨hdvd, hmod⟩ := trailing_zeros hr
  exact ⟨_, _, rfl, Nat.div_mul_cancel hdvd, hmod⟩

/-- What does not end in a zero has the fewer powers of ten in a product. -/
theorem le_of_mul_pow_eq {a q j z : Nat} (ha : a % 10 ≠ 0) (h : a * 10 ^ z = q * 10 ^ j) :
    j ≤ z ∧ a * 10 ^ (z - j) = q := by
  rcases Nat.lt_or_ge z j with hlt | hge
  · obtain ⟨i, rfl⟩ := Nat.exists_eq_add_of_lt hlt
    rw [Nat.add_assoc, Nat.pow_add, mul_left_comm, Nat.mul_comm, mul_right_inj' (by positivity),
      Nat.pow_succ, ← Nat.mul_assoc] at h
    rw [h, Nat.mul_mod_left] at ha
    exact absurd rfl ha
  · obtain ⟨i, rfl⟩ := Nat.exists_eq_add_of_le hge
    rw [Nat.pow_add, mul_left_comm, mul_comm, mul_left_inj' (by positivity)] at h
    rw [Nat.add_sub_cancel_left]
    exact ⟨hge, h⟩

/-- A number that ends in zeros, beside one that has no more digits than it has without them, is
ten. -/
theorem eq_ten_of_beside {a q o n : Nat} (ha : a % 10 ≠ 0) (hq : a * 10 ^ (n + 1) = q)
    (hbeside : q = o + 1 ∨ o = q + 1) (ho : o < 10 ^ (Nat.toDigits 10 a).length) :
    q = 10 ∧ o = 9 := by
  rw [Nat.pow_succ, ← Nat.mul_assoc] at hq
  obtain ⟨d, hd⟩ := Nat.exists_eq_succ_of_ne_zero (Nat.length_toDigits_pos (b := 10) (n := a)).ne'
  have hfirst := pow_length_le fun h : a = 0 => ha (by rw [h])
  rw [hd, Nat.succ_sub_one] at hfirst
  rw [hd, Nat.pow_succ] at ho
  have hmore : a ≤ a * 10 ^ n := Nat.le_mul_of_pos_right a (by positivity)
  -- Only a power of ten has a number of fewer digits beside it, and one is all that is left of it.
  have hpow : a = 10 ^ d := by omega
  cases d with
  | zero =>
    rw [Nat.pow_zero] at hpow ho
    omega
  | succ d =>
    rw [hpow, Nat.pow_succ, Nat.mul_mod_left] at ha
    exact absurd rfl ha

/-! ### Neighbours on a grid -/

/-- A decimal with few digits is not between the neighbours of a number on a grid: it is on the grid,
or below the first power of ten. -/
theorem le_or_le_of_lt {j : Nat} (hx : 10 ^ (k + j) ≤ x) (hc : c < 10 ^ (k + 1)) (t : Int) :
    (c : ℚ) * 10 ^ t ≤ (x / 10 ^ j * 10 ^ j : Nat)
      ∨ ((x / 10 ^ j + 1) * 10 ^ j : Nat) ≤ (c : ℚ) * 10 ^ t := by
  have hpow : 0 < 10 ^ j := by positivity
  by_cases hj : (j : Int) ≤ t
  · obtain ⟨i, rfl⟩ := Int.le.dest hj
    have hwhole : (c : ℚ) * 10 ^ ((j : Int) + i) = (c * 10 ^ i * 10 ^ j : Nat) := by
      rw [zpow_add₀ (by norm_num), zpow_natCast, zpow_natCast]
      push_cast
      ring
    rw [hwhole, Nat.cast_le, Nat.cast_le, Nat.mul_le_mul_right_iff hpow,
      Nat.mul_le_mul_right_iff hpow]
    omega
  · -- Its last digit stands below the step, and then it has too few digits to reach `x`.
    left
    have hfirst : 10 ^ k ≤ x / 10 ^ j := by
      rwa [Nat.le_div_iff_mul_le hpow, ← Nat.pow_add]
    have hc' : (c : ℚ) ≤ 10 ^ (k + 1) := by exact_mod_cast hc.le
    calc (c : ℚ) * 10 ^ t
        ≤ 10 ^ (k + 1) * 10 ^ ((j : Int) - 1) := by
          gcongr
          · norm_num
          · omega
      _ = (10 ^ k * 10 ^ j : Nat) := by
          rw [zpow_sub_one₀ (by norm_num), zpow_natCast]
          push_cast
          ring
      _ ≤ (x / 10 ^ j * 10 ^ j : Nat) := by
          exact_mod_cast Nat.mul_le_mul_right _ hfirst

/-- How far a number is from its neighbours on a grid. -/
theorem abs_sub_neighbours {step : Nat} (hstep : 0 < step) (x : Nat) :
    |(x : ℚ) - (x / step * step : Nat)| = (x - x / step * step : Nat)
      ∧ |(x : ℚ) - ((x / step + 1) * step : Nat)| = ((x / step + 1) * step - x : Nat) := by
  have hlow : x / step * step ≤ x := Nat.div_mul_le_self x step
  have hhigh : x ≤ (x / step + 1) * step := by
    rw [Nat.mul_comm]
    exact (Nat.lt_mul_div_succ x hstep).le
  constructor
  · rw [← Nat.cast_sub hlow, Nat.abs_cast]
  · rw [abs_sub_comm, ← Nat.cast_sub hhigh, Nat.abs_cast]

/-- The two points beside `x` on a grid, in either order. -/
def Beside (x step q o : Nat) : Prop :=
  q = x / step ∧ o = x / step + 1 ∨ q = x / step + 1 ∧ o = x / step

theorem Beside.eq_or_eq {step q o r : Nat} (h : Beside x step q o)
    (hr : r = x / step ∨ r = x / step + 1) : r = q ∨ r = o := by
  rcases h with ⟨rfl, rfl⟩ | ⟨rfl, rfl⟩
  · exact hr
  · exact hr.symm

/-- Of two points on a grid the first one is nearer to `x`, or it is as near and even. -/
def Preferred (x step q o : Nat) : Prop :=
  |(x : ℚ) - (q * step : Nat)| < |(x : ℚ) - (o * step : Nat)|
    ∨ |(x : ℚ) - (q * step : Nat)| = |(x : ℚ) - (o * step : Nat)| ∧ q % 2 = 0

/-- Of two neighbours the preferred one is taken. -/
theorem nearer_eq {step : Nat} (hstep : 0 < step) (x : Nat) : ∃ q o, Beside x step q o
    ∧ nearer .even x step (x / step * step) ((x / step + 1) * step) = q * step
    ∧ Preferred x step q o := by
  obtain ⟨hlow, hhigh⟩ := abs_sub_neighbours hstep x
  rw [nearer, Nat.mul_div_cancel _ hstep]
  rcases Nat.lt_trichotomy (x - x / step * step) ((x / step + 1) * step - x) with
    hless | htie | hmore
  · refine ⟨_, _, .inl ⟨rfl, rfl⟩, if_pos hless, .inl ?_⟩
    rw [hlow, hhigh]
    exact Nat.cast_lt.mpr hless
  · rw [if_neg htie.not_lt, if_neg htie.not_gt]
    by_cases heven : x / step % 2 = 0
    · exact ⟨_, _, .inl ⟨rfl, rfl⟩, if_pos heven, .inr ⟨by rw [hlow, hhigh, htie], heven⟩⟩
    · exact ⟨_, _, .inr ⟨rfl, rfl⟩, if_neg heven, .inr ⟨by rw [hlow, hhigh, htie], by omega⟩⟩
  · refine ⟨_, _, .inr ⟨rfl, rfl⟩, by rw [if_neg hmore.not_gt, if_pos hmore], .inl ?_⟩
    rw [hlow, hhigh]
    exact Nat.cast_lt.mpr hmore

/-- A neighbour that is taken is in the interval, and is preferred to the other one if that is in the
interval too. -/
theorem of_neighbour?_eq_some {step r : Nat} (hstep : 0 < step)
    (h : neighbour? .even i x step = some r) : ∃ q o, Beside x step q o ∧ r = q * step
      ∧ i.holds (q * step) ∧ (i.holds (o * step) → Preferred x step q o) := by
  have hsucc : x / step * step + step = (x / step + 1) * step := (Nat.succ_mul _ _).symm
  rw [neighbour?, hsucc] at h
  split at h
  · next hl hh =>
    obtain ⟨q, o, hbeside, hnearer, hpreferred⟩ := nearer_eq hstep x
    refine ⟨q, o, hbeside, (Option.some.inj h).symm.trans hnearer, ?_, fun _ => hpreferred⟩
    rcases hbeside with ⟨rfl, -⟩ | ⟨rfl, -⟩
    · exact hl
    · exact hh
  · next hl hh =>
    refine ⟨_, _, .inl ⟨rfl, rfl⟩, (Option.some.inj h).symm, hl, fun ho => ?_⟩
    rw [hh] at ho
    cases ho
  · next hl hh =>
    refine ⟨_, _, .inr ⟨rfl, rfl⟩, (Option.some.inj h).symm, hh, fun ho => ?_⟩
    rw [hl] at ho
    cases ho
  · cases h

/-- If no neighbour is taken, none is in the interval. -/
theorem of_neighbour?_eq_none {step : Nat} (h : neighbour? tie i x step = none) :
    i.holds (x / step * step) = false ∧ i.holds ((x / step + 1) * step) = false := by
  have hsucc : x / step * step + step = (x / step + 1) * step := (Nat.succ_mul _ _).symm
  rw [neighbour?, hsucc] at h
  split at h
  · cases h
  · cases h
  · cases h
  · next hl hh => exact ⟨hl, hh⟩

/-- The first of a range of numbers for which there is something. -/
theorem exists_first {α : Type} {g : Nat → Option α} {count : Nat}
    (h : ∃ k < count, (g k).isSome) : ∃ k < count, ∃ a, (List.range count).findSome? g = some a
      ∧ g k = some a ∧ ∀ j < k, g j = none := by
  induction count with
  | zero =>
    obtain ⟨k, hk, -⟩ := h
    exact absurd hk (Nat.not_lt_zero k)
  | succ n ih =>
    rw [List.range_succ, List.findSome?_append]
    by_cases hbefore : ∃ k < n, (g k).isSome
    · obtain ⟨k, hk, a, hfound, hka, hnone⟩ := ih hbefore
      exact ⟨k, Nat.lt_succ_of_lt hk, a, by rw [hfound, Option.some_or], hka, hnone⟩
    · have hnone : ∀ j < n, g j = none := fun j hj =>
        Option.not_isSome_iff_eq_none.mp fun hsome => hbefore ⟨j, hj, hsome⟩
      have hrange : (List.range n).findSome? g = none :=
        List.findSome?_eq_none_iff.mpr fun j hj => hnone j (List.mem_range.mp hj)
      obtain ⟨k, hk, hsome⟩ := h
      obtain rfl : k = n := by
        by_contra hne
        rw [hnone k (by omega)] at hsome
        cases hsome
      obtain ⟨a, ha⟩ := Option.isSome_iff_exists.mp hsome
      refine ⟨k, hk, a, ?_, ha, hnone⟩
      rw [hrange, Option.none_or, List.findSome?_singleton, ha]

/-! ### The decimal that is chosen -/

/-- The decimal `a`, with zeros behind it, is the point `q` of the first grid on which a neighbour of
`x` is in the interval; this grid has the points of `k + 1` digits.  The other neighbour is `o`. -/
structure Chosen (i : Interval) (x k j q o a zeros : Nat) : Prop where
  ne_zero : x ≠ 0
  length_eq : (Nat.toDigits 10 x).length = k + 1 + j
  has_self : i.Has x
  holds : i.holds (q * 10 ^ j)
  beside : Beside x (10 ^ j) q o
  preferred : i.holds (o * 10 ^ j) → Preferred x (10 ^ j) q o
  coarser : ∀ k' < k, neighbour? .even i x (10 ^ ((Nat.toDigits 10 x).length - 1 - k')) = none
  eq_mul : a * 10 ^ zeros = q * 10 ^ j
  last_ne_zero : a % 10 ≠ 0

/-- The shortest decimal is chosen so. -/
theorem exists_chosen (f : Format) (hm : m ≠ 0) (e : Int) : ∃ k j q o a zeros : Nat,
    Chosen (Interval.around f m e) (m * unit e) k j q o a zeros
      ∧ shortest f .even m e = ⟨a, min e 0 + zeros⟩ := by
  have hx : m * unit e ≠ 0 := Nat.mul_ne_zero hm (unit_pos e).ne'
  have hself := Interval.has_around f hm e
  have hlength : 0 < (Nat.toDigits 10 (m * unit e)).length := Nat.length_toDigits_pos
  -- The last grid has the number itself.
  have hlast : (neighbour? .even (Interval.around f m e) (m * unit e)
      (10 ^ ((Nat.toDigits 10 (m * unit e)).length - 1
        - ((Nat.toDigits 10 (m * unit e)).length - 1)))).isSome := by
    by_contra hnone
    have hlow := (of_neighbour?_eq_none (Option.not_isSome_iff_eq_none.mp hnone)).1
    rw [Nat.sub_self, Nat.pow_zero, Nat.div_one, Nat.mul_one, Interval.holds_iff.mpr hself] at hlow
    cases hlow
  obtain ⟨k, hk, r, hfound, hr, hnone⟩ := exists_first
    (g := fun k => neighbour? .even (Interval.around f m e) (m * unit e)
      (10 ^ ((Nat.toDigits 10 (m * unit e)).length - 1 - k)))
    ⟨_, Nat.sub_one_lt hlength.ne', hlast⟩
  obtain ⟨q, o, hbeside, rfl, hholds, hpreferred⟩ := of_neighbour?_eq_some (by positivity) hr
  have hq : q * 10 ^ ((Nat.toDigits 10 (m * unit e)).length - 1 - k) ≠ 0 := by
    have hfirst : 0 < m * unit e / 10 ^ ((Nat.toDigits 10 (m * unit e)).length - 1 - k) :=
      Nat.div_pos ((Nat.pow_le_pow_right (by decide) (Nat.sub_le _ _)).trans (pow_length_le hx))
        (by positivity)
    rcases hbeside with ⟨rfl, -⟩ | ⟨rfl, -⟩
    · exact Nat.mul_ne_zero hfirst.ne' (by positivity)
    · exact Nat.mul_ne_zero (Nat.succ_ne_zero _) (by positivity)
  obtain ⟨a, zeros, htrimmed, hmul, hmod⟩ := exists_trimmed hq (min e 0)
  refine ⟨k, _, q, o, a, zeros,
    ⟨hx, by omega, hself, hholds, hbeside, hpreferred, hnone, hmul, hmod⟩, ?_⟩
  rw [← htrimmed]
  show trimmed ⟨((List.range _).findSome? _).getD _, _⟩ = _
  exact congrArg (fun found : Option Nat => trimmed ⟨found.getD _, _⟩) hfound

namespace Chosen

variable {j q o a zeros : Nat}

theorem pow_le (h : Chosen i x k j q o a zeros) : 10 ^ (k + j) ≤ x := by
  have hpow := pow_length_le h.ne_zero
  rwa [h.length_eq, Nat.add_right_comm, Nat.add_sub_cancel] at hpow

/-- The points beside `x` have no more than `k + 1` digits, but for the next power of ten. -/
theorem le_pow (h : Chosen i x k j q o a zeros) : q ≤ 10 ^ (k + 1) := by
  have hlt := lt_pow_length x
  rw [h.length_eq, Nat.pow_add] at hlt
  have hdiv : x / 10 ^ j < 10 ^ (k + 1) := Nat.div_lt_of_lt_mul (by rwa [Nat.mul_comm])
  rcases h.beside with ⟨rfl, -⟩ | ⟨rfl, -⟩
  · exact hdiv.le
  · exact hdiv

/-- Without its zeros the point has no more than `k + 1` digits. -/
theorem lt_pow (h : Chosen i x k j q o a zeros) : a < 10 ^ (k + 1) := by
  have hle := h.le_pow
  obtain ⟨-, hq⟩ := le_of_mul_pow_eq h.last_ne_zero h.eq_mul
  rw [← hq] at hle
  refine lt_of_le_of_ne ((Nat.le_mul_of_pos_right a (by positivity)).trans hle) ?_
  rintro rfl
  exact h.last_ne_zero (by rw [Nat.pow_succ, Nat.mul_mod_left])

/-- The chosen decimal has the fewest digits. -/
theorem fewest (h : Chosen i x k j q o a zeros) (hc : i.Has (c * 10 ^ t)) :
    (Nat.toDigits 10 a).length ≤ (Nat.toDigits 10 c).length := by
  by_contra hlt
  have hpos : 0 < (Nat.toDigits 10 c).length := Nat.length_toDigits_pos
  have hle := (Nat.length_toDigits_le_iff (by decide) k.succ_pos).mpr h.lt_pow
  obtain ⟨k', hk'⟩ := Nat.exists_eq_succ_of_ne_zero hpos.ne'
  have hlength := h.length_eq
  obtain ⟨hlow, hhigh⟩ := of_neighbour?_eq_none (h.coarser k' (by omega))
  have hdigits := lt_pow_length c
  rw [hk'] at hdigits
  obtain ⟨j', hj'⟩ : ∃ j', (Nat.toDigits 10 x).length - 1 - k' = j' := ⟨_, rfl⟩
  rw [hj'] at hlow hhigh
  have hx : 10 ^ (k' + j') ≤ x := by
    have hpow := h.pow_le
    rwa [show k' + j' = k + j by omega]
  -- The interval reaches from the decimal to `x`, over a neighbour on the coarser grid.
  rcases le_or_le_of_lt hx hdigits t with hy | hy
  · have hhas := hc.between h.has_self hy (Nat.cast_le.mpr (Nat.div_mul_le_self x _))
    rw [Interval.holds_iff.mpr hhas] at hlow
    cases hlow
  · have hx' : x ≤ (x / 10 ^ j' + 1) * 10 ^ j' := by
      rw [Nat.mul_comm]
      exact (Nat.lt_mul_div_succ x (by positivity)).le
    have hhas := h.has_self.between hc (Nat.cast_le.mpr hx') hy
    rw [Interval.holds_iff.mpr hhas] at hhigh
    cases hhigh

/-- A decimal of as few digits in the interval is beyond a neighbour of `x` in the interval, or is
this neighbour. -/
theorem exists_side (h : Chosen i x k j q o a zeros) (hc : i.Has (c * 10 ^ t))
    (hdigits : c < 10 ^ (k + 1)) : ∃ r, (r = q ∨ r = o) ∧ i.holds (r * 10 ^ j)
      ∧ (|(x : ℚ) - (r * 10 ^ j : Nat)| < |(x : ℚ) - c * 10 ^ t|
        ∨ (c : ℚ) * 10 ^ t = (r * 10 ^ j : Nat)) := by
  have hlow : ((x / 10 ^ j * 10 ^ j : Nat) : ℚ) ≤ x := Nat.cast_le.mpr (Nat.div_mul_le_self x _)
  have hhigh : (x : ℚ) ≤ ((x / 10 ^ j + 1) * 10 ^ j : Nat) := by
    rw [Nat.cast_le, Nat.mul_comm]
    exact (Nat.lt_mul_div_succ x (by positivity)).le
  rcases le_or_le_of_lt h.pow_le hdigits t with hy | hy
  · refine ⟨_, h.beside.eq_or_eq (.inl rfl),
      Interval.holds_iff.mpr (hc.between h.has_self hy hlow), ?_⟩
    rcases hy.lt_or_eq with hlt | heq
    · left
      rw [abs_of_nonneg (sub_nonneg.mpr hlow), abs_of_nonneg (sub_nonneg.mpr (hy.trans hlow))]
      exact sub_lt_sub_left hlt _
    · exact .inr heq
  · refine ⟨_, h.beside.eq_or_eq (.inr rfl),
      Interval.holds_iff.mpr (h.has_self.between hc hhigh hy), ?_⟩
    rcases hy.lt_or_eq with hlt | heq
    · left
      rw [abs_of_nonpos (sub_nonpos.mpr hhigh), abs_of_nonpos (sub_nonpos.mpr (hhigh.trans hy))]
      exact neg_lt_neg (sub_lt_sub_left hlt _)
    · exact .inr heq.symm

/-- A decimal that is a point of the grid not ending in a zero has at least its digits. -/
theorem le_of_eq_point {o : Nat} (ho : o % 10 ≠ 0)
    (h : (c : ℚ) * 10 ^ t = (o * 10 ^ j : Nat)) : o ≤ c := by
  have hten : (10 : ℚ) ≠ 0 := by norm_num
  rw [Nat.cast_mul, Nat.cast_pow, Nat.cast_ofNat, ← zpow_natCast] at h
  rcases le_or_gt t j with hle | hgt
  · obtain ⟨n, hn⟩ := Int.le.dest hle
    rw [← hn, add_comm t, zpow_add₀ hten, ← mul_assoc, mul_left_inj' (zpow_ne_zero t hten),
      zpow_natCast] at h
    have hwhole : c = o * 10 ^ n := by exact_mod_cast h
    rw [hwhole]
    exact Nat.le_mul_of_pos_right o (by positivity)
  · obtain ⟨n, hn⟩ := Int.lt.dest hgt
    rw [← hn, add_comm (j : Int), zpow_add₀ hten, ← mul_assoc, mul_left_inj' (zpow_ne_zero _ hten),
      zpow_natCast] at h
    have hwhole : o = c * 10 ^ (n + 1) := by exact_mod_cast h.symm
    rw [hwhole, Nat.pow_succ, ← Nat.mul_assoc, Nat.mul_mod_left] at ho
    exact absurd rfl ho

/-- If the other neighbour is as near and has as few digits, the last digit is even.  Only nine and
ten steps have an even point that loses a digit with its zero; `x` is never halfway between them. -/
theorem even_of_tie (h : Chosen i x k j q o a zeros)
    (hnine : ∀ j, 2 * x = 19 * 10 ^ j → i.holds (10 * 10 ^ j) = false)
    (htie : |(x : ℚ) - (q * 10 ^ j : Nat)| = |(x : ℚ) - (o * 10 ^ j : Nat)|) (heven : q % 2 = 0)
    (hpoint : (c : ℚ) * 10 ^ t = (o * 10 ^ j : Nat))
    (hlength : (Nat.toDigits 10 c).length = (Nat.toDigits 10 a).length) : a % 2 = 0 := by
  obtain ⟨-, hq⟩ := le_of_mul_pow_eq h.last_ne_zero h.eq_mul
  rcases hzeros : zeros - j with - | n
  · rwa [← hq, hzeros, Nat.pow_zero, Nat.mul_one] at heven
  · exfalso
    -- Zeros are lost at `q`, so `o` can keep up in digits only if the two are ten and nine.
    have hbeside : q = o + 1 ∨ o = q + 1 := by
      rcases h.beside with ⟨rfl, rfl⟩ | ⟨rfl, rfl⟩
      · exact .inr rfl
      · exact .inl rfl
    have ho : o % 10 ≠ 0 := by
      rw [hzeros, Nat.pow_succ, ← Nat.mul_assoc] at hq
      omega
    have hdigits : o < 10 ^ (Nat.toDigits 10 a).length := by
      rw [← hlength]
      exact (le_of_eq_point ho hpoint).trans_lt (lt_pow_length c)
    obtain ⟨rfl, rfl⟩ := eq_ten_of_beside h.last_ne_zero (hzeros ▸ hq) hbeside hdigits
    have hless : ((9 * 10 ^ j : Nat) : ℚ) < (10 * 10 ^ j : Nat) :=
      Nat.cast_lt.mpr (Nat.mul_lt_mul_of_pos_right (by decide) (by positivity))
    have hhalf := (abs_sub_eq_iff_eq_midpoint hless).mp htie.symm
    have hno := hnine j (by rw [← Nat.cast_inj (R := ℚ)]; push_cast at hhalf ⊢; linarith)
    rw [h.holds] at hno
    cases hno

/-- No decimal of as few digits is nearer than the chosen one. -/
theorem nearest (h : Chosen i x k j q o a zeros)
    (hnine : ∀ j, 2 * x = 19 * 10 ^ j → i.holds (10 * 10 ^ j) = false)
    (hc : i.Has (c * 10 ^ t))
    (hlength : (Nat.toDigits 10 c).length = (Nat.toDigits 10 a).length)
    (hne : (c : ℚ) * 10 ^ t ≠ (q * 10 ^ j : Nat)) :
    |(x : ℚ) - (q * 10 ^ j : Nat)| < |(x : ℚ) - c * 10 ^ t|
      ∨ |(x : ℚ) - (q * 10 ^ j : Nat)| = |(x : ℚ) - c * 10 ^ t| ∧ a % 2 = 0 := by
  have hdigits : c < 10 ^ (k + 1) := by
    rw [← Nat.length_toDigits_le_iff (by decide) k.succ_pos, hlength]
    exact (Nat.length_toDigits_le_iff (by decide) k.succ_pos).mpr h.lt_pow
  obtain ⟨r, rfl | rfl, hholds, hbeyond⟩ := h.exists_side hc hdigits
  · exact .inl (hbeyond.resolve_right hne)
  · rcases h.preferred hholds with hlt | ⟨htie, heven⟩
    · rcases hbeyond with hbeyond | hpoint
      · exact .inl (hlt.trans hbeyond)
      · rw [hpoint]
        exact .inl hlt
    · rcases hbeyond with hbeyond | hpoint
      · exact .inl (htie.trans_lt hbeyond)
      · rw [hpoint]
        exact .inr ⟨htie, h.even_of_tie hnine htie heven hpoint hlength⟩

end Chosen

/-! ### The shortest decimal -/

/-- Of all decimals that are read as a pattern this one has the fewest digits, and of those it is the
nearest to the pattern's magnitude; if another one of them is as near, its last digit is even. -/
structure IsShortest (p w n c : Nat) (t : Int) : Prop where
  reads : ReadsAs p w (c * 10 ^ t) n
  fewest : ∀ (c' : Nat) (t' : Int), ReadsAs p w (c' * 10 ^ t') n →
    (Nat.toDigits 10 c).length ≤ (Nat.toDigits 10 c').length
  nearest : ∀ (c' : Nat) (t' : Int), ReadsAs p w (c' * 10 ^ t') n →
    (Nat.toDigits 10 c').length = (Nat.toDigits 10 c).length →
    (c' : ℚ) * 10 ^ t' ≠ c * 10 ^ t →
    |(c : ℚ) * 10 ^ t - magnitudeOf p w n| < |(c' : ℚ) * 10 ^ t' - magnitudeOf p w n|
      ∨ |(c : ℚ) * 10 ^ t - magnitudeOf p w n| = |(c' : ℚ) * 10 ^ t' - magnitudeOf p w n|
        ∧ c % 2 = 0

/-- A number halfway between nine and ten steps has nineteen among its factors, so its significand is
too great for an interval that reaches to ten steps. -/
theorem holds_ten_of_halfway (f : Format) (hm : m ≠ 0) (e : Int) (j : Nat)
    (h : 2 * (m * unit e) = 19 * 10 ^ j) : (Interval.around f m e).holds (10 * 10 ^ j) = false := by
  have hprime : Nat.Prime 19 := by norm_num
  have hunit : ¬ 19 ∣ unit e := by
    rw [unit]
    split
    · exact fun hdvd => absurd (hprime.dvd_of_dvd_pow hdvd) (by decide)
    · exact fun hdvd => absurd (hprime.dvd_of_dvd_pow hdvd) (by decide)
  have hdvd : 19 ∣ m := by
    have hproduct : 19 ∣ 2 * (m * unit e) := ⟨_, h⟩
    rcases hprime.dvd_mul.mp hproduct with htwo | hrest
    · exact absurd htwo (by decide)
    · exact (hprime.dvd_mul.mp hrest).resolve_right hunit
  have hgreat : 19 * unit e ≤ m * unit e :=
    Nat.mul_le_mul_right _ (Nat.le_of_dvd (Nat.pos_of_ne_zero hm) hdvd)
  have hu := unit_pos e
  rw [Interval.holds, Interval.around]
  dsimp only
  split
  · rw [Bool.and_eq_false_iff, decide_eq_false_iff_not, decide_eq_false_iff_not]
    omega
  · rw [Bool.and_eq_false_iff, decide_eq_false_iff_not, decide_eq_false_iff_not]
    omega

/-- Zero is written as zero. -/
theorem isShortest_zero (p w : Nat) : IsShortest p w 0 0 0 := by
  have hzero : magnitudeOf p w 0 = 0 := by
    simp [magnitudeOf, significandOf, exponentOf, fractionOf]
  refine ⟨?_, ?_, ?_⟩
  · intro other hother hne
    left
    have hpos := magnitudeOf_lt (Nat.pos_of_ne_zero hne) hother
    rw [hzero] at hpos ⊢
    simpa using hpos.ne'
  · exact fun c' t' _ => Nat.length_toDigits_pos
  · intro c' t' _ _ hne
    left
    rw [hzero, sub_zero, sub_zero, Nat.cast_zero, zero_mul, abs_zero, abs_pos]
    rwa [Nat.cast_zero, zero_mul] at hne

/-- **The shortest decimal is the shortest one that reads back, and the nearest of these.** -/
theorem isShortest_shortest (hf : 0 < f.fractionBits) (hn : 0 < n) (h : n < f.infinity) :
    ∃ c t, shortest f .even (significandOf f.fractionBits f.exponentBits n)
        (placeOf f.fractionBits f.exponentBits n) = ⟨c, t⟩
      ∧ IsShortest f.fractionBits f.exponentBits n c t ∧ c % 10 ≠ 0 := by
  have hm := significandOf_ne_zero f hn (h.trans f.infinity_lt_sign)
  have hreads := fun y => readsAs_iff_has (y := y) hf hn h
  have hmagnitude := magnitudeOf_eq_units f n
  generalize significandOf f.fractionBits f.exponentBits n = m at *
  generalize placeOf f.fractionBits f.exponentBits n = e at *
  obtain ⟨k, j, q, o, a, zeros, hchosen, hshortest⟩ := exists_chosen f hm e
  have hten : (10 : ℚ) ≠ 0 := by norm_num
  have hpos : (0 : ℚ) < 10 ^ min e 0 := zpow_pos (by norm_num) _
  -- From here on all decimals are counted in units.
  have hunits : ∀ (c : Nat) (t : Int),
      (c : ℚ) * 10 ^ t = c * 10 ^ (t - min e 0) * 10 ^ min e 0 := by
    intro c t
    rw [mul_assoc, ← zpow_add₀ hten, Int.sub_add_cancel]
  have hdistance : ∀ y : ℚ, |y * 10 ^ min e 0 - magnitudeOf f.fractionBits f.exponentBits n|
      = |((m * unit e : Nat) : ℚ) - y| * 10 ^ min e 0 := by
    intro y
    rw [hmagnitude, ← sub_mul, abs_mul, abs_of_pos hpos, abs_sub_comm]
  have hpoint : (a : ℚ) * 10 ^ (min e 0 + zeros) = (q * 10 ^ j : Nat) * 10 ^ min e 0 := by
    rw [zpow_add₀ hten, ← hchosen.eq_mul, zpow_natCast]
    push_cast
    ring
  refine ⟨a, _, hshortest, ⟨?_, ?_, ?_⟩, hchosen.last_ne_zero⟩
  · rw [hpoint, hreads]
    exact Interval.holds_iff.mp hchosen.holds
  · intro c' t' hc'
    rw [hunits, hreads] at hc'
    exact hchosen.fewest hc'
  · intro c' t' hc' hlength hne
    rw [hunits, hreads] at hc'
    rw [hunits c', hpoint, Ne, mul_left_inj' hpos.ne'] at hne
    rw [hunits c', hpoint, hdistance, hdistance, mul_lt_mul_iff_of_pos_right hpos,
      mul_left_inj' hpos.ne']
    exact hchosen.nearest (holds_ten_of_halfway f hm e) hc' hlength hne

end ReservoirPlot.Decimal
