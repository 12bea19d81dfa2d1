/-
ReservoirPlot/Proofs/Summary/Case.lean

From the samples of a plot to the cells of its summary.  The points of a vector
are written into its column one after another, so a cell keeps the last value
that is written to it:

    cell i of a column           the value of the last point with index `i`
    points with index `i`        samples with the timestep of axis point `i`
    selected samples of `t`      samples of `t` in file order

The first is an induction from the right (`getElem?_cells`), the second the
one-to-one correspondence of timesteps and places on an axis
(`axisIndex_eq_iff`), the third the stability of the sort.  The main result
`summary_of_series` puts the three in a chain.
-/
import Mathlib.Data.List.Induction
import ReservoirPlot.Proofs.Series.Conversion
import ReservoirPlot.Summary.Case

namespace ReservoirPlot

/-! ### Start date -/

/-- A header has no start date exactly if its year, month and day are none of the calendar; the
error then repeats them. -/
theorem Header.startDate_eq_error_iff (h : Header) (e : InvalidStartDate) :
    h.startDate = .error e ↔ e = ⟨h.day, h.month, h.year⟩
      ∧ ¬ ∃ d : Date, d.year = h.year.toInt ∧ d.month = h.month.toInt ∧ d.day = h.day.toInt := by
  rw [startDate, Date.of?]
  split
  · next d hd =>
    split at hd
    · next hvalid =>
      constructor
      · intro h
        cases h
      · rintro ⟨-, hnone⟩
        exact absurd ⟨⟨_, _, _, hvalid.1, hvalid.2⟩, rfl, rfl, rfl⟩ hnone
    · cases hd
  · next hnone =>
    split at hnone
    · cases hnone
    · next hinvalid =>
      constructor
      · intro he
        refine ⟨(Except.error.inj he).symm, ?_⟩
        rintro ⟨d, hyear, hmonth, hday⟩
        exact hinvalid (hyear ▸ hmonth ▸ hday ▸ ⟨d.year_mem, d.day_mem⟩)
      · rintro ⟨rfl, -⟩
        rfl

namespace SummaryCase

/-! ### Cells -/

theorem cells_concat (count : Nat) (points : List Point) (p : Point) :
    cells count (points ++ [p]) = (cells count points).set p.index (some p.value) := by
  rw [cells, List.foldl_append]
  rfl

/-- A cell has the value of the last point that leads to it. -/
theorem getElem?_cells {count i : Nat} (hi : i < count) (points : List Point) :
    (cells count points)[i]?
      = some (((points.filter (·.index = i)).getLast?).map (·.value)) := by
  induction points using List.reverseRecOn with
  | nil =>
    show (List.replicate count none)[i]? = some none
    rw [List.getElem?_replicate, if_pos hi]
  | append_singleton points p ih =>
    rw [cells_concat, List.getElem?_set, length_cells, List.filter_append]
    by_cases h : p.index = i
    · rw [if_pos h, h, if_pos hi, List.filter_cons_of_pos (by simpa using h), List.filter_nil,
        List.getLast?_concat]
      rfl
    · rw [if_neg h, List.filter_cons_of_neg (by simpa using h), List.filter_nil, List.append_nil,
        ih]

/-! ### Making a case -/

variable {name : String} {header : Header} {series : Series}

/-- Only the start date can fail. -/
theorem of_eq_error_iff {e : InvalidStartDate} :
    of name header series = .error e ↔ header.startDate = .error e := by
  rw [of]
  rcases header.startDate with e' | d
  · show (Except.error e' : Except InvalidStartDate SummaryCase) = .error e ↔ _
    rw [Except.error.injEq, Except.error.injEq]
  · constructor
    · intro h
      cases h
    · intro h
      cases h

/-- The steps are read off the points: a cell has the value of the last point of its vector that
leads to its step. -/
theorem steps_of {c : SummaryCase} (h : of name header series = .ok c) :
    c.steps = series.timeAxis.mapIdx fun i point =>
      ⟨i + 1, seconds point.time, series.vectors.map fun v =>
        ((v.points.filter (·.index = i)).getLast?).map (·.value)⟩ := by
  rw [of] at h
  obtain ⟨d, -, h⟩ := bind_eq_ok_iff.mp h
  obtain rfl := Except.ok.inj h
  apply List.ext_getElem?
  intro i
  dsimp only
  rw [List.getElem?_mapIdx, List.getElem?_mapIdx]
  rcases hpoint : series.timeAxis[i]? with - | point
  · rfl
  · obtain ⟨hlt, -⟩ := List.getElem?_eq_some_iff.mp hpoint
    have hcells : ∀ v ∈ series.vectors, ((cells series.timeAxis.length v.points)[i]?).join
        = ((v.points.filter (·.index = i)).getLast?).map (·.value) := by
      intro v _
      rw [getElem?_cells hlt]
      rfl
    rw [Option.map_some, Option.map_some, stepAt, List.map_map]
    exact congrArg (fun values => some (SummaryStep.mk (i + 1) _ values))
      (List.map_congr_left hcells)

end SummaryCase

/-! ### The whole case -/

/-- The value of a variable of an instance at a timestep: that of the last sample. -/
def Plot.lastValue? (p : Plot) (className instanceName : String) (t : Int32)
    (code : VariableCode) : Option Binary32 :=
  (((p.samplesWhere (some className) (some instanceName) none).filter
    fun s => s.timestep = t ∧ s.code = code).getLast?).map (·.value)

/-- The last of the points of a variable at a place of the axis has the value of the last of the
samples at the timestep of this place. -/
theorem Plot.getLast?_pointsOf (p : Plot) {className instanceName : String}
    {axis : List TimePoint}
    (h : Marks axis
      ((p.samplesWhere (some className) (some instanceName) none).map (·.timestep)))
    {i : Nat} {point : TimePoint} (hpoint : axis[i]? = some point) (code : VariableCode) :
    ((((pointsOf axis (p.selected className instanceName) code).filter
      (·.index = i)).getLast?).map (·.value))
      = p.lastValue? className instanceName point.timestep code := by
  have horder := p.inTimeOrder_selected className instanceName
  have hplace : ∀ s ∈ (p.selected className instanceName).filter (·.code = code),
      decide (axisIndex axis s.timestep = i) = decide (s.timestep = point.timestep) := by
    intro s hs
    have hmem := horder.perm.mem_iff.mp (List.mem_filter.mp hs).1
    exact decide_eq_decide.mpr (h.axisIndex_eq_iff (List.mem_map_of_mem hmem) hpoint)
  have hsamples : ((p.selected className instanceName).filter (·.code = code)).filter
      (fun s => axisIndex axis s.timestep = i)
      = (p.samplesWhere (some className) (some instanceName) none).filter
        fun s => s.timestep = point.timestep ∧ s.code = code := by
    rw [List.filter_congr hplace, (horder.filter _).stable, List.filter_filter]
    exact List.filter_congr fun s _ => (Bool.decide_and _ _).symm
  rw [pointsOf, List.filter_map, List.getLast?_map, Option.map_map, lastValue?, ← hsamples]
  rfl

/-- **A summary has the last sample of every timestep and variable.**  There is no summary only if
the header has no start date.  Otherwise it has one step for each timestep of the instance, in
ascending order and numbered from 1, and in each step a cell for each vector. -/
theorem summary_of_series {p : Plot} {o : SeriesOptions} {series : Series}
    (h : p.series o = .ok series) (name : String) :
    (∀ e, SummaryCase.of name p.header series = .error e
      ↔ e = ⟨p.header.day, p.header.month, p.header.year⟩
        ∧ ¬ ∃ d : Date, d.year = p.header.year.toInt ∧ d.month = p.header.month.toInt
          ∧ d.day = p.header.day.toInt)
    ∧ ∀ c, SummaryCase.of name p.header series = .ok c →
      Marks series.timeAxis
        ((p.samplesWhere (some o.className) (some o.instanceName) none).map (·.timestep))
      ∧ c.steps = series.timeAxis.mapIdx fun i point =>
        ⟨i + 1, SummaryCase.seconds point.time, series.vectors.map fun v =>
          p.lastValue? o.className o.instanceName point.timestep v.code⟩ := by
  have hmarks := Plot.marks_of_seriesWith h
  constructor
  · intro e
    rw [SummaryCase.of_eq_error_iff, Header.startDate_eq_error_iff]
  · intro c hc
    refine ⟨hmarks, ?_⟩
    rw [SummaryCase.steps_of hc]
    apply List.ext_getElem?
    intro i
    rw [List.getElem?_mapIdx, List.getElem?_mapIdx]
    rcases hpoint : series.timeAxis[i]? with - | point
    · rfl
    · have hlast : ∀ v ∈ series.vectors, ((v.points.filter (·.index = i)).getLast?).map (·.value)
          = p.lastValue? o.className o.instanceName point.timestep v.code := by
        intro v hv
        rw [Plot.points_of_seriesWith h hv, ← p.getLast?_pointsOf hmarks hpoint v.code]
      rw [Option.map_some, Option.map_some, List.map_congr_left hlast]

/-- The options for one of the wells. -/
def wellOptions : SeriesOptions := ⟨"WELL", "P1", []⟩

theorem series_outOfOrder : outOfOrder.series wellOptions = .ok outOfOrderSeries := by
  have htable : wellOptions.table = .field := KeywordTable.extend_nil _
  rw [Plot.series, htable]
  exact seriesWith_outOfOrder

theorem summary_of_outOfOrder :
    outOfOrder.series wellOptions = .ok outOfOrderSeries
      ∧ ∃ c, SummaryCase.of "CASE" outOfOrder.header outOfOrderSeries = .ok c
        ∧ c.steps.map (·.values) = [[some ⟨2⟩, none], [some ⟨7⟩, some ⟨1⟩]]
        ∧ Marks outOfOrderSeries.timeAxis
          ((outOfOrder.samplesWhere (some "WELL") (some "P1") none).map (·.timestep))
        ∧ c.steps = outOfOrderSeries.timeAxis.mapIdx fun i point =>
          ⟨i + 1, SummaryCase.seconds point.time, outOfOrderSeries.vectors.map fun v =>
            outOfOrder.lastValue? "WELL" "P1" point.timestep v.code⟩ := by
  refine ⟨series_outOfOrder, ?_⟩
  obtain ⟨c, hc, hvalues⟩ : ∃ c, SummaryCase.of "CASE" outOfOrder.header outOfOrderSeries = .ok c
      ∧ c.steps.map (·.values) = [[some ⟨2⟩, none], [some ⟨7⟩, some ⟨1⟩]] :=
    ⟨_, rfl, rfl⟩
  obtain ⟨hmarks, hsteps⟩ := (summary_of_series series_outOfOrder "CASE").2 c hc
  exact ⟨c, hc, hvalues, hmarks, hsteps⟩

end ReservoirPlot
