/-
ReservoirPlot/Proofs/Summary/ElapsedTime.lean

The elapsed seconds of a summary are exact.  A time has 24 bits and the seconds of a day
have 17 (they are 675 * 2 ^ 7), so their product fits the 53 bits of double precision, and
the exponents of single precision stay far from the ends of those of double precision.  The
product is formed of significands that were filled up to 53 bits each, but rounding goes by
the number alone (`Format.nearest_congr`), so the product may be written with the bits of
the time and of the seconds themselves:

    time                m * 2 ^ e
    seconds of a day    (86400 * 2 ^ 36) * 2 ^ (-36)
    product             (m * 86400) * 2 ^ e

Main result: `elapsedSeconds_exact`.
-/
import Mathlib.Algebra.Order.Ring.Unbundled.Basic
import ReservoirPlot.Proofs.Binary.Value
import ReservoirPlot.Proofs.Summary.Case

namespace ReservoirPlot

open Binary

namespace SummaryCase

/-! ### Seconds of a time -/

theorem datum_secondsPerDay : secondsPerDay.datum = .finite false (86400 * 2 ^ 36) (-36) := by
  decide +kernel

theorem scaled_secondsPerDay : scaled (86400 * 2 ^ 36) (-36) = 86400 := by
  rw [scaled_mul_two_pow]
  show ((86400 : Nat) : ℚ) * 2 ^ (0 : Int) = 86400
  rw [zpow_zero, mul_one, Nat.cast_ofNat]

/-- The seconds of a finite time have its sign and are the product. -/
theorem exists_datum_seconds {x : Binary32} (h : x.IsFinite) : ∃ negative m e n k,
    x.datum = .finite negative m e ∧ (seconds x).datum = .finite negative n k
      ∧ scaled n k = 86400 * scaled m e := by
  obtain ⟨negative, m, i, hx, hm, hi⟩ := Binary32.datum_of_isFinite h
  -- The time in double precision is the same number, in other words.
  obtain ⟨n, k, hwide, hsame⟩ :=
    Binary64.exists_datum_ofDatum (Nat.lt_trans hm (by decide)) (by omega) (by omega) negative
      (e := -149 + i)
  obtain ⟨q, place, hproduct, hvalue⟩ :=
    Binary64.exists_datum_ofDatum (m := m * 86400) (e := -149 + i) (by omega) (by omega) (by omega)
      negative
  refine ⟨negative, m, _, q, place, hx, ?_, ?_⟩
  · -- What is rounded has significands filled up to 53 bits; the same number fits as it stands.
    have hnumber : scaled (n * (86400 * 2 ^ 36)) (k + -36) = scaled (m * 86400) (-149 + i) := by
      rw [← scaled_mul_scaled, scaled_secondsPerDay, hsame, scaled, scaled, Nat.cast_mul,
        Nat.cast_ofNat, mul_right_comm]
    have hmul : seconds x = .ofDatum (.finite negative (n * (86400 * 2 ^ 36)) (k + -36)) := by
      show Binary64.ofDatum ((Binary64.ofDatum x.datum).datum.mul secondsPerDay.datum) = _
      rw [hx, hwide, datum_secondsPerDay, Datum.mul, Bool.bne_false]
    rw [hmul, Binary64.datum_ofDatum_finite, double.nearest_congr negative hnumber,
      ← Binary64.datum_ofDatum_finite, hproduct]
  · rw [hvalue, scaled, scaled, Nat.cast_mul, Nat.cast_ofNat, mul_comm (m : ℚ), mul_assoc]

/-- **Seconds are exact.** -/
theorem value?_seconds {x : Binary32} (h : x.IsFinite) :
    ∃ t, x.value? = some t ∧ (seconds x).value? = some (86400 * t) := by
  obtain ⟨negative, m, e, n, k, hx, hseconds, hvalue⟩ := exists_datum_seconds h
  refine ⟨_, by rw [Binary32.value?, hx, Datum.value?], ?_⟩
  rw [Binary64.value?, hseconds, Datum.value?, hvalue, mul_ite, mul_neg]

/-- Different times have different seconds, the two zeros included. -/
theorem seconds_injective {x y : Binary32} (hx : x.IsFinite) (hy : y.IsFinite)
    (h : seconds x = seconds y) : x = y := by
  obtain ⟨negative, m, e, n, k, hxdatum, hxseconds, hxvalue⟩ := exists_datum_seconds hx
  obtain ⟨negative', m', e', n', k', hydatum, hyseconds, hyvalue⟩ := exists_datum_seconds hy
  rw [h, hyseconds] at hxseconds
  obtain ⟨rfl, rfl, rfl⟩ := Datum.finite.inj hxseconds
  refine Binary32.eq_of_scaled_eq hxdatum hydatum ?_
  rw [hxvalue] at hyvalue
  exact mul_left_cancel₀ (by norm_num) hyvalue

/-- The seconds of finite times compare as the times do. -/
theorem compare?_seconds {x y : Binary32} (hx : x.IsFinite) (hy : y.IsFinite) :
    ∃ o, x.datum.compare? y.datum = some o
      ∧ (seconds x).datum.compare? (seconds y).datum = some o := by
  obtain ⟨s, hs, hsseconds⟩ := value?_seconds hx
  obtain ⟨t, ht, htseconds⟩ := value?_seconds hy
  rw [Binary32.value?] at hs ht
  rw [Binary64.value?] at hsseconds htseconds
  refine ⟨cmp s t, by rw [Datum.compare?, hs, ht]; rfl, ?_⟩
  rw [Datum.compare?, hsseconds, htseconds, ← cmp_mul_pos_left (by norm_num : (0 : ℚ) < 86400)]
  rfl

/-! ### Steps -/

variable {name : String} {header : Header} {series : Series} {c : SummaryCase}

/-- The step at a place of the time axis has the seconds of its time. -/
theorem getElem?_steps (h : of name header series = .ok c) {i : Nat} {point : TimePoint}
    (hpoint : series.timeAxis[i]? = some point) :
    ∃ step, c.steps[i]? = some step ∧ step.elapsedSeconds = seconds point.time := by
  rw [steps_of h, List.getElem?_mapIdx, hpoint]
  exact ⟨_, rfl, rfl⟩

end SummaryCase

open SummaryCase in
/-- **Elapsed seconds are exact.**  A step whose time is finite has 86400 times that number as its
seconds.  So the seconds of two such steps compare as their times do, and they are the same only if
the times are, even as bits. -/
theorem elapsedSeconds_exact {name : String} {header : Header} {series : Series}
    {c : SummaryCase} (h : SummaryCase.of name header series = .ok c) :
    (∀ (i : Nat) (point : TimePoint), series.timeAxis[i]? = some point → point.time.IsFinite →
      ∃ (step : SummaryStep) (t : ℚ), c.steps[i]? = some step ∧ point.time.value? = some t
        ∧ step.elapsedSeconds.value? = some (86400 * t))
    ∧ ∀ (i j : Nat) (p q : TimePoint), series.timeAxis[i]? = some p → series.timeAxis[j]? = some q →
      p.time.IsFinite → q.time.IsFinite → ∃ (a b : SummaryStep) (o : Ordering),
        c.steps[i]? = some a ∧ c.steps[j]? = some b
        ∧ p.time.datum.compare? q.time.datum = some o
        ∧ a.elapsedSeconds.datum.compare? b.elapsedSeconds.datum = some o
        ∧ (a.elapsedSeconds = b.elapsedSeconds → p.time = q.time) := by
  constructor
  · intro i point hpoint hfinite
    obtain ⟨step, hstep, hseconds⟩ := getElem?_steps h hpoint
    obtain ⟨t, ht, hexact⟩ := value?_seconds hfinite
    exact ⟨step, t, hstep, ht, hseconds ▸ hexact⟩
  · intro i j p q hp hq hpfinite hqfinite
    obtain ⟨a, ha, haseconds⟩ := getElem?_steps h hp
    obtain ⟨b, hb, hbseconds⟩ := getElem?_steps h hq
    obtain ⟨o, htimes, hsecs⟩ := compare?_seconds hpfinite hqfinite
    rw [← haseconds, ← hbseconds] at hsecs
    refine ⟨a, b, o, ha, hb, htimes, hsecs, fun heq => ?_⟩
    rw [haseconds, hbseconds] at heq
    exact seconds_injective hpfinite hqfinite heq

/-- A series whose times are the least number above zero, the greatest number and negative zero. -/
def extremeSeries : Series :=
  ⟨[], [⟨1, ⟨0x00000001⟩⟩, ⟨2, ⟨0x7F7FFFFF⟩⟩, ⟨3, ⟨0x80000000⟩⟩], []⟩

theorem elapsedSeconds_of_extremes :
    ∃ c, SummaryCase.of "CASE" outOfOrder.header extremeSeries = .ok c
      ∧ c.steps.map (·.elapsedSeconds)
        = [⟨0x37A5180000000000⟩, ⟨0x48F517FFEAE80000⟩, ⟨0x8000000000000000⟩]
      ∧ (⟨0x7F7FFFFF⟩ : Binary32).IsFinite
      ∧ (∃ (step : SummaryStep) (t : ℚ), c.steps[0]? = some step
        ∧ (⟨0x00000001⟩ : Binary32).value? = some t
        ∧ step.elapsedSeconds.value? = some (86400 * t))
      ∧ ∃ (a b : SummaryStep) (o : Ordering), c.steps[2]? = some a ∧ c.steps[1]? = some b
        ∧ (⟨0x80000000⟩ : Binary32).datum.compare? (⟨0x7F7FFFFF⟩ : Binary32).datum = some o
        ∧ a.elapsedSeconds.datum.compare? b.elapsedSeconds.datum = some o := by
  obtain ⟨c, hc, hseconds⟩ : ∃ c,
      SummaryCase.of "CASE" outOfOrder.header extremeSeries = .ok c
        ∧ c.steps.map (·.elapsedSeconds)
          = [⟨0x37A5180000000000⟩, ⟨0x48F517FFEAE80000⟩, ⟨0x8000000000000000⟩] :=
    ⟨_, rfl, by decide +kernel⟩
  have hleast : (⟨0x00000001⟩ : Binary32).IsFinite := by unfold Binary32.IsFinite; decide
  have hgreatest : (⟨0x7F7FFFFF⟩ : Binary32).IsFinite := by unfold Binary32.IsFinite; decide
  have hzero : (⟨0x80000000⟩ : Binary32).IsFinite := by unfold Binary32.IsFinite; decide
  obtain ⟨hexact, hcompare⟩ := elapsedSeconds_exact hc
  obtain ⟨a, b, o, ha, hb, htimes, hsecs, -⟩ := hcompare 2 1 _ _ rfl rfl hzero hgreatest
  exact ⟨c, hc, hseconds, hgreatest, hexact 0 _ rfl hleast, a, b, o, ha, hb, htimes, hsecs⟩

end ReservoirPlot
