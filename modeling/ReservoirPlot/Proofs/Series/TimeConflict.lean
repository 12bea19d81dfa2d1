/-
ReservoirPlot/Proofs/Series/TimeConflict.lean

When a plot has a time axis.  The axis is built along the samples in the order of
their timesteps, and every sample is compared with the last axis point only.
`conflictAt?` says of any samples, in whatever order, where the data disagrees at
a timestep; since it looks at the samples of one timestep alone, it is the same
before and after the sort (`conflictAt?_congr`).

`AxisOrConflict` is what comes of the samples: the conflict of the least timestep
that has one, or an axis with the time of each timestep's first sample.
`axisOrConflict_axisAfter` is the step, by induction on the samples still to come.
Agreement of times is no equivalence, since a NaN does not agree even with
itself; the proof uses nothing about it.

Main result: `seriesWith_conflicts`.
-/
import ReservoirPlot.Proofs.Series.Conversion

namespace ReservoirPlot

/-! ### Conflicts -/

/-- The conflict at a timestep: the time of its first sample, and that of the first later one
that does not agree with it. -/
def conflictAt? (samples : List Sample) (t : Int32) : Option TimeConflict :=
  match samples.filter (·.timestep = t) with
  | [] => none
  | first :: later =>
    (later.find? fun s => !first.time.agrees s.time).map fun s => ⟨t, first.time, s.time⟩

/-- The time of the first sample of a timestep. -/
def firstTime? (samples : List Sample) (t : Int32) : Option Binary32 :=
  ((samples.filter (·.timestep = t)).head?).map (·.time)

variable {samples others : List Sample} {t : Int32}

/-- Conflicts are known from the samples of each timestep. -/
theorem conflictAt?_congr
    (h : samples.filter (·.timestep = t) = others.filter (·.timestep = t)) :
    conflictAt? samples t = conflictAt? others t := by
  rw [conflictAt?, h, conflictAt?]

theorem firstTime?_congr
    (h : samples.filter (·.timestep = t) = others.filter (·.timestep = t)) :
    firstTime? samples t = firstTime? others t := by
  rw [firstTime?, h, firstTime?]

/-! ### Samples of a timestep -/

section Front

variable {first s : Sample} {rest : List Sample}

theorem filter_timestep_cons_self (h : s.timestep = t) :
    (s :: rest).filter (·.timestep = t) = s :: rest.filter (·.timestep = t) :=
  List.filter_cons_of_pos (decide_eq_true h)

theorem filter_timestep_cons_of_ne (h : s.timestep ≠ t) :
    (s :: rest).filter (·.timestep = t) = rest.filter (·.timestep = t) :=
  List.filter_cons_of_neg (by simpa using h)

/-- A timestep that no sample has has no samples. -/
theorem filter_timestep_eq_nil (h : ∀ s ∈ samples, t ≠ s.timestep) :
    samples.filter (·.timestep = t) = [] := by
  rw [List.filter_eq_nil_iff]
  intro s hs
  simpa using Ne.symm (h s hs)

theorem conflictAt?_eq_none (h : ∀ s ∈ samples, t ≠ s.timestep) :
    conflictAt? samples t = none := by
  rw [conflictAt?, filter_timestep_eq_nil h]

theorem firstTime?_eq_none (h : ∀ s ∈ samples, t ≠ s.timestep) :
    firstTime? samples t = none := by
  rw [firstTime?, filter_timestep_eq_nil h]
  rfl

/-! ### One more sample in front -/

/-- The only sample of a timestep is in no conflict. -/
theorem conflictAt?_cons_of_alone (h : ∀ s ∈ rest, first.timestep ≠ s.timestep) (t : Int32) :
    conflictAt? (first :: rest) t = conflictAt? rest t := by
  by_cases ht : first.timestep = t
  · subst ht
    rw [conflictAt?, filter_timestep_cons_self rfl, filter_timestep_eq_nil h,
      conflictAt?_eq_none h]
    rfl
  · exact conflictAt?_congr (filter_timestep_cons_of_ne ht)

/-- A second sample that agrees with the first one adds no conflict. -/
theorem conflictAt?_cons_cons_of_agrees (htimestep : s.timestep = first.timestep)
    (hagrees : first.time.agrees s.time) (t : Int32) :
    conflictAt? (first :: s :: rest) t = conflictAt? (first :: rest) t := by
  by_cases ht : first.timestep = t
  · rw [conflictAt?, conflictAt?, filter_timestep_cons_self ht, filter_timestep_cons_self ht,
      filter_timestep_cons_self (htimestep.trans ht)]
    show ((s :: rest.filter _).find? _).map _ = _
    rw [List.find?_cons_of_neg (by simpa using hagrees)]
  · apply conflictAt?_congr
    rw [filter_timestep_cons_of_ne ht, filter_timestep_cons_of_ne ht,
      filter_timestep_cons_of_ne (htimestep ▸ ht)]

/-- A second sample that does not agree with the first one is the conflict. -/
theorem conflictAt?_cons_cons_of_not_agrees (htimestep : s.timestep = first.timestep)
    (hagrees : ¬ first.time.agrees s.time) :
    conflictAt? (first :: s :: rest) s.timestep = some ⟨s.timestep, first.time, s.time⟩ := by
  rw [conflictAt?, filter_timestep_cons_self htimestep.symm, filter_timestep_cons_self rfl]
  show ((s :: rest.filter _).find? _).map _ = _
  rw [List.find?_cons_of_pos (by simpa using hagrees)]
  rfl

/-- Behind a first sample, others of its timestep do not change first times. -/
theorem firstTime?_cons_cons (htimestep : s.timestep = first.timestep) (t : Int32) :
    firstTime? (first :: s :: rest) t = firstTime? (first :: rest) t := by
  by_cases ht : first.timestep = t
  · rw [firstTime?, firstTime?, filter_timestep_cons_self ht, filter_timestep_cons_self ht]
    rfl
  · apply firstTime?_congr
    rw [filter_timestep_cons_of_ne ht, filter_timestep_cons_of_ne ht,
      filter_timestep_cons_of_ne (htimestep ▸ ht)]

theorem firstTime?_cons_self : firstTime? (first :: rest) first.timestep = some first.time := by
  rw [firstTime?, filter_timestep_cons_self rfl]
  rfl

theorem firstTime?_cons_of_ne (h : first.timestep ≠ t) :
    firstTime? (first :: rest) t = firstTime? rest t :=
  firstTime?_congr (filter_timestep_cons_of_ne h)

end Front

/-! ### The axis -/

/-- The conflict of the least timestep that has one, or an axis of first times. -/
def AxisOrConflict (samples : List Sample) : Except TimeConflict (List TimePoint) → Prop
  | .error c => conflictAt? samples c.timestep = some c
      ∧ ∀ t < c.timestep, conflictAt? samples t = none
  | .ok axis => (∀ t, conflictAt? samples t = none)
      ∧ ∀ point ∈ axis, firstTime? samples point.timestep = some point.time

/-- Only the conflicts and the first times matter. -/
theorem AxisOrConflict.congr {result : Except TimeConflict (List TimePoint)}
    (h : AxisOrConflict samples result)
    (hconflict : ∀ t, conflictAt? others t = conflictAt? samples t)
    (htime : ∀ t, firstTime? others t = firstTime? samples t) : AxisOrConflict others result := by
  rcases result with c | axis
  · refine ⟨?_, fun t ht => ?_⟩
    · rw [hconflict, h.1]
    · rw [hconflict, h.2 t ht]
  · refine ⟨fun t => ?_, fun point hpoint => ?_⟩
    · rw [hconflict, h.1]
    · rw [htime, h.2 point hpoint]

/-- A sample of another timestep than the last point's adds a point. -/
theorem axisAfter_cons_of_ne {last : TimePoint} {s : Sample} {rest : List Sample}
    (h : s.timestep ≠ last.timestep) : axisAfter last (s :: rest)
      = (axisAfter ⟨s.timestep, s.time⟩ rest).map (⟨s.timestep, s.time⟩ :: ·) := by
  rw [axisAfter, if_neg h]
  show (axisAfter ⟨s.timestep, s.time⟩ rest >>= fun points => pure (_ :: points)) = _
  rcases axisAfter ⟨s.timestep, s.time⟩ rest with c | points <;> rfl

/-- The axis behind the point of a sample, for samples in the order of their timesteps. -/
theorem axisOrConflict_axisAfter {first : Sample} {rest : List Sample}
    (hsorted : (first :: rest).Pairwise fun a b => a.timestep ≤ b.timestep) :
    AxisOrConflict (first :: rest)
      ((axisAfter ⟨first.timestep, first.time⟩ rest).map (⟨first.timestep, first.time⟩ :: ·)) := by
  induction rest generalizing first with
  | nil =>
    refine ⟨fun t => ?_, fun point hpoint => ?_⟩
    · exact conflictAt?_cons_of_alone (fun _ h => absurd h List.not_mem_nil) t
    · obtain rfl := List.mem_singleton.mp hpoint
      exact firstTime?_cons_self
  | cons s rest ih =>
    obtain ⟨hfirst, hrest⟩ := List.pairwise_cons.mp hsorted
    obtain ⟨hs, -⟩ := List.pairwise_cons.mp hrest
    by_cases htimestep : s.timestep = first.timestep
    · rw [axisAfter, if_pos htimestep]
      by_cases hagrees : first.time.agrees s.time
      · -- The axis goes on as without this sample.
        rw [if_pos hagrees]
        have hskip := ih (hsorted.sublist ((List.sublist_cons_self s rest).cons_cons first))
        exact hskip.congr (conflictAt?_cons_cons_of_agrees htimestep hagrees)
          (firstTime?_cons_cons htimestep)
      · rw [if_neg hagrees]
        refine ⟨conflictAt?_cons_cons_of_not_agrees htimestep hagrees, fun t ht => ?_⟩
        -- No sample is before the first, so none has an earlier timestep.
        apply conflictAt?_eq_none
        rintro a ha rfl
        have hle : first.timestep ≤ a.timestep := by
          rcases List.mem_cons.mp ha with rfl | ha
          · exact Int32.le_rfl
          · exact hfirst a ha
        exact Int32.lt_irrefl (Int32.lt_of_lt_of_le (htimestep ▸ ht) hle)
    · rw [axisAfter_cons_of_ne htimestep]
      -- The first sample is the only one of its timestep.
      have hlt : first.timestep < s.timestep :=
        Int32.lt_of_le_of_ne (hfirst s List.mem_cons_self) (Ne.symm htimestep)
      have halone : ∀ a ∈ s :: rest, first.timestep ≠ a.timestep := by
        intro a ha h
        have hle : s.timestep ≤ a.timestep := by
          rcases List.mem_cons.mp ha with rfl | ha
          · exact Int32.le_rfl
          · exact hs a ha
        exact Int32.lt_irrefl (Int32.lt_of_lt_of_le (h ▸ hlt) hle)
      have hspec := ih hrest
      rcases hafter : axisAfter ⟨s.timestep, s.time⟩ rest with c | points
      · rw [hafter] at hspec
        show AxisOrConflict (first :: s :: rest) (.error c)
        refine ⟨?_, fun t ht => ?_⟩
        · rw [conflictAt?_cons_of_alone halone]
          exact hspec.1
        · rw [conflictAt?_cons_of_alone halone]
          exact hspec.2 t ht
      · rw [hafter] at hspec
        show AxisOrConflict (first :: s :: rest) (.ok (_ :: _ :: points))
        refine ⟨fun t => ?_, fun point hpoint => ?_⟩
        · rw [conflictAt?_cons_of_alone halone]
          exact hspec.1 t
        · rcases List.mem_cons.mp hpoint with rfl | hpoint
          · exact firstTime?_cons_self
          · have htime := hspec.2 point hpoint
            rwa [firstTime?_cons_of_ne]
            intro h
            rw [← h, firstTime?_eq_none halone] at htime
            cases htime

/-- The axis of samples in the order of their timesteps. -/
theorem axisOrConflict_timeAxis
    (hsorted : samples.Pairwise fun a b => a.timestep ≤ b.timestep) :
    AxisOrConflict samples (timeAxis samples) := by
  rcases samples with - | ⟨s, rest⟩
  · refine ⟨fun t => rfl, fun point hpoint => ?_⟩
    exact absurd hpoint List.not_mem_nil
  · exact axisOrConflict_axisAfter hsorted

/-- The axis of the selected samples, in terms of the samples in file order. -/
theorem Plot.axisOrConflict_selected (p : Plot) (className instanceName : String) :
    AxisOrConflict (p.samplesWhere (some className) (some instanceName) none)
      (timeAxis (p.selected className instanceName)) := by
  have horder := p.inTimeOrder_selected className instanceName
  exact (axisOrConflict_timeAxis horder.ascending).congr
    (fun t => (conflictAt?_congr (horder.stable t)).symm)
    (fun t => (firstTime?_congr (horder.stable t)).symm)

/-- There is one conflict of the least timestep that has one. -/
theorem AxisOrConflict.eq_error {result : Except TimeConflict (List TimePoint)} {c : TimeConflict}
    (h : AxisOrConflict samples result) (hc : AxisOrConflict samples (.error c)) :
    result = .error c := by
  rcases result with found | axis
  · by_cases heq : found.timestep = c.timestep
    · have hfound := h.1
      rw [heq, hc.1] at hfound
      rw [Option.some.inj hfound]
    · rcases Int32.le_total found.timestep c.timestep with hle | hle
      · have hnone := hc.2 _ (Int32.lt_of_le_of_ne hle heq)
        rw [h.1] at hnone
        cases hnone
      · have hnone := h.2 _ (Int32.lt_of_le_of_ne hle (Ne.symm heq))
        rw [hc.1] at hnone
        cases hnone
  · have hnone := h.1 c.timestep
    rw [hc.1] at hnone
    cases hnone

/-! ### The conversion -/

/-- A timestep has a conflict if a later sample does not agree with its first one. -/
theorem conflictAt?_isSome_iff : (conflictAt? samples t).isSome
    ↔ ∃ first later, samples.filter (·.timestep = t) = first :: later
      ∧ ∃ s ∈ later, ¬ first.time.agrees s.time := by
  rw [conflictAt?]
  split
  · next hnil =>
    constructor
    · nofun
    · rintro ⟨first, later, hcons, -⟩
      rw [hnil] at hcons
      cases hcons
  · next first later hcons =>
    rw [Option.isSome_map, List.find?_isSome]
    constructor
    · rintro ⟨s, hs, hne⟩
      exact ⟨first, later, hcons, s, hs, by simpa using hne⟩
    · rintro ⟨first', later', hcons', s, hs, hne⟩
      obtain ⟨rfl, rfl⟩ := List.cons.inj (hcons.symm.trans hcons')
      exact ⟨s, hs, by simpa using hne⟩

/-- A conversion fails as its time axis does. -/
theorem Plot.seriesWith_eq_error_iff {p : Plot} {className instanceName : String}
    {table : KeywordTable} {c : TimeConflict} :
    p.seriesWith className instanceName table = .error c
      ↔ timeAxis (p.selected className instanceName) = .error c := by
  rw [seriesWith]
  rcases timeAxis (p.selected className instanceName) with found | axis
  · show Except.error found = .error c ↔ Except.error found = .error c
    rw [Except.error.injEq, Except.error.injEq]
  · constructor
    · intro h
      cases h
    · intro h
      cases h

/-- **A conversion reports the first conflict, and there is an axis if there is none.**  The
conflict is that of the least timestep that has one, and is made of the times of this timestep's
first sample in the file and of the first later one that does not agree with it.  The axis has each
timestep of the instance once, ascending, with the time of its first sample in the file. -/
theorem seriesWith_conflicts (p : Plot) (className instanceName : String) (table : KeywordTable) :
    (∀ c, p.seriesWith className instanceName table = .error c
      ↔ conflictAt? (p.samplesWhere (some className) (some instanceName) none) c.timestep = some c
        ∧ ∀ t < c.timestep,
          conflictAt? (p.samplesWhere (some className) (some instanceName) none) t = none)
    ∧ ((∃ c, p.seriesWith className instanceName table = .error c)
      ↔ ∃ t first later, (p.samplesWhere (some className) (some instanceName) none).filter
          (·.timestep = t) = first :: later ∧ ∃ s ∈ later, ¬ first.time.agrees s.time)
    ∧ ∀ series, p.seriesWith className instanceName table = .ok series →
      Marks series.timeAxis
        ((p.samplesWhere (some className) (some instanceName) none).map (·.timestep))
      ∧ ∀ point ∈ series.timeAxis,
        firstTime? (p.samplesWhere (some className) (some instanceName) none) point.timestep
          = some point.time := by
  have hspec := p.axisOrConflict_selected className instanceName
  refine ⟨?_, ?_, ?_⟩
  · intro c
    rw [Plot.seriesWith_eq_error_iff]
    constructor
    · intro h
      rwa [h] at hspec
    · exact hspec.eq_error
  · constructor
    · rintro ⟨c, hc⟩
      rw [Plot.seriesWith_eq_error_iff.mp hc] at hspec
      exact ⟨c.timestep, conflictAt?_isSome_iff.mp (Option.isSome_of_mem hspec.1)⟩
    · rintro ⟨t, hconflict⟩
      rcases haxis : timeAxis (p.selected className instanceName) with c | axis
      · exact ⟨c, Plot.seriesWith_eq_error_iff.mpr haxis⟩
      · rw [haxis] at hspec
        have hsome := conflictAt?_isSome_iff.mpr hconflict
        rw [hspec.1 t] at hsome
        cases hsome
  · intro series h
    refine ⟨Plot.marks_of_seriesWith h, ?_⟩
    obtain ⟨axis, haxis, rfl⟩ := Plot.seriesWith_eq_ok_iff.mp h
    rw [haxis] at hspec
    exact hspec.2

/-- A plot with conflicts at two timesteps, of which the lesser comes later in the file.  There,
the two zeros agree, and the sample of another well does not count. -/
def disagreeing : Plot :=
  { outOfOrder with
    samples := [{ wellSample 5 "P1" "QOP" 3 with time := ⟨0x7FC00000⟩ },
      { wellSample 5 "P1" "WCUT" 1 with time := ⟨0x7FC00000⟩ }, wellSample (-2) "P1" "QOP" 2,
      { wellSample (-2) "P1" "WCUT" 1 with time := ⟨0x80000000⟩ },
      { wellSample (-2) "P2" "QOP" 9 with time := ⟨0x40400000⟩ },
      { wellSample (-2) "P1" "GOR" 4 with time := ⟨0x3F800000⟩ },
      { wellSample (-2) "P1" "QWP" 5 with time := ⟨0x40000000⟩ }] }

theorem seriesWith_disagreeing :
    disagreeing.seriesWith "WELL" "P1" .field = .error ⟨-2, .zero, ⟨0x3F800000⟩⟩
      ∧ outOfOrder.seriesWith "WELL" "P1" .field = .ok outOfOrderSeries
      ∧ Marks outOfOrderSeries.timeAxis
        ((outOfOrder.samplesWhere (some "WELL") (some "P1") none).map (·.timestep))
      ∧ ∀ point ∈ outOfOrderSeries.timeAxis,
        firstTime? (outOfOrder.samplesWhere (some "WELL") (some "P1") none) point.timestep
          = some point.time := by
  refine ⟨?_, seriesWith_outOfOrder,
    (seriesWith_conflicts outOfOrder "WELL" "P1" .field).2.2 _ seriesWith_outOfOrder⟩
  refine ((seriesWith_conflicts disagreeing "WELL" "P1" .field).1 _).mpr ⟨?_, ?_⟩
  · decide +kernel
  · intro t ht
    have hleast : ∀ s ∈ disagreeing.samplesWhere (some "WELL") (some "P1") none,
        -2 ≤ s.timestep := by
      decide +kernel
    apply conflictAt?_eq_none
    rintro s hs rfl
    exact Int32.lt_irrefl (Int32.lt_of_lt_of_le ht (hleast s hs))

end ReservoirPlot
