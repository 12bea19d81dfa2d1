/-
ReservoirPlot/Proofs/Summary/Signal.lean

A vector leaves the library in two ways: as the frames of a signal and as a column
of a summary.  The signal leaves out points that the time axis has no time for and
numbers the rest; the summary writes all points into its column, where those beyond
the end do not show.  Both come down to the same points, those that are placed on
the axis:

    frame i of the signal            the point that is placed i-th
    cell j of the column             the last point that is placed at j

A series need not come from a plot for this: its points may be out of order, repeat
an index or lead beyond the axis.

Main result: `frames_agree_with_cells`.
-/
import ReservoirPlot.Proofs.Binary.Patterns
import ReservoirPlot.Proofs.Summary.Case
import ReservoirPlot.Series.Frame

namespace ReservoirPlot

/-! ### Frames -/

/-- The frame is numbered by its place, and marks the end if it is the one behind so many data. -/
structure Frame.IsAt (f : Frame) (place count : Nat) : Prop where
  sequence_eq : f.sequence = place
  isEnd_iff : f.isEnd ↔ place = count

namespace Series

variable {s : Series} {v : SummaryVector} {p : Point} {i : Nat}

/-- The points of a vector that have a place on the time axis. -/
def placed (s : Series) (v : SummaryVector) : List Point :=
  v.points.filter fun p => p.index < s.timeAxis.length

/-- The time and the value of a point, if the time axis has a time for it. -/
def timedValue? (s : Series) (p : Point) : Option (Binary32 × Binary32) :=
  (s.timeAxis[p.index]?).map fun t => (t.time, p.value)

/-- The points that are sent are those that have a place. -/
theorem map_some_timedValues (s : Series) (v : SummaryVector) :
    (s.timedValues v).map some = (s.placed v).map s.timedValue? := by
  have hplace : Option.isSome ∘ s.timedValue? = fun p => decide (p.index < s.timeAxis.length) := by
    funext p
    rw [Function.comp_apply, timedValue?, Option.isSome_map]
    exact Bool.eq_iff_iff.mpr (by simp)
  calc (s.timedValues v).map some
      = (v.points.map s.timedValue?).filter Option.isSome :=
        List.map_filterMap_some_eq_filter_map_isSome
    _ = (s.placed v).map s.timedValue? := by rw [List.filter_map, hplace]; rfl

theorem length_timedValues (s : Series) (v : SummaryVector) :
    (s.timedValues v).length = (s.placed v).length := by
  have hlength := congrArg List.length (s.map_some_timedValues v)
  rwa [List.length_map, List.length_map] at hlength

/-- The data of a signal are the times and values of the points that have a place, in order. -/
theorem getElem?_timedValues (h : (s.placed v)[i]? = some p) :
    ∃ t, s.timeAxis[p.index]? = some t ∧ (s.timedValues v)[i]? = some (t.time, p.value) := by
  have hmem := List.mem_filter.mp (List.mem_of_getElem? h)
  have hsome := congrArg (fun values => values[i]?) (s.map_some_timedValues v)
  rw [List.getElem?_map, List.getElem?_map, h] at hsome
  refine ⟨_, List.getElem?_eq_getElem (of_decide_eq_true hmem.2), ?_⟩
  obtain ⟨tv, htv, heq⟩ := Option.map_eq_some_iff.mp hsome
  rw [timedValue?, List.getElem?_eq_getElem (of_decide_eq_true hmem.2)] at heq
  rw [htv, heq]
  rfl

/-- Before the end of a signal stand its data. -/
theorem getElem?_frames_of_placed (h : (s.placed v)[i]? = some p) :
    ∃ t, s.timeAxis[p.index]? = some t
      ∧ (s.frames v)[i]? = some (.data v.unit i t.time p.value) := by
  obtain ⟨t, ht, htv⟩ := getElem?_timedValues h
  refine ⟨t, ht, ?_⟩
  rw [frames, List.getElem?_append_left, List.getElem?_mapIdx, htv]
  · rfl
  · rw [List.length_mapIdx]
    exact (List.getElem?_eq_some_iff.mp htv).1

/-- Behind the data of a signal stands its end. -/
theorem getElem?_frames_length (s : Series) (v : SummaryVector) :
    (s.frames v)[(s.placed v).length]? = some (.finish (s.placed v).length) := by
  have hdata : ((s.timedValues v).mapIdx fun i tv => Frame.data v.unit i tv.1 tv.2).length
      = (s.placed v).length := by
    rw [List.length_mapIdx, length_timedValues]
  rw [frames, List.getElem?_append_right (Nat.le_of_eq hdata), hdata, Nat.sub_self,
    length_timedValues]
  rfl

/-- The frames are numbered without gaps, and only the last one marks the end. -/
theorem isAt_of_getElem?_frames {f : Frame} (h : (s.frames v)[i]? = some f) :
    f.IsAt i (s.placed v).length := by
  have hlt : i < (s.placed v).length + 1 := by
    rw [← length_timedValues, ← length_frames]
    exact (List.getElem?_eq_some_iff.mp h).1
  -- A frame with a point of its own is a datum, and the one behind these is the end.
  rcases Nat.lt_succ_iff_lt_or_eq.mp hlt with hbefore | rfl
  · obtain ⟨t, -, hdata⟩ := getElem?_frames_of_placed (List.getElem?_eq_getElem hbefore)
    obtain rfl := Option.some.inj (hdata.symm.trans h)
    exact ⟨Frame.sequence_data .., iff_of_false (by simp) (Nat.ne_of_lt hbefore)⟩
  · obtain rfl := Option.some.inj ((s.getElem?_frames_length v).symm.trans h)
    exact ⟨Frame.sequence_finish .., iff_of_true (Frame.isEnd_finish ..) rfl⟩

/-! ### Cells -/

/-- Within the axis, only points that have a place matter. -/
theorem filter_index_placed {j : Nat} (hj : j < s.timeAxis.length) (v : SummaryVector) :
    (s.placed v).filter (·.index = j) = v.points.filter (·.index = j) := by
  rw [placed, List.filter_filter]
  apply List.filter_congr
  intro p _
  rw [Bool.and_eq_left_iff_imp]
  intro hp
  exact decide_eq_true (of_decide_eq_true hp ▸ hj)

/-- The point behind which none leads to the same place is the last one there. -/
theorem getLast?_filter_index {front back : List Point}
    (h : ∀ p' ∈ back, p'.index ≠ p.index) :
    ((front ++ p :: back).filter (·.index = p.index)).getLast? = some p := by
  have hback : back.filter (·.index = p.index) = [] :=
    List.filter_eq_nil_iff.mpr fun p' hp' => by simpa using h p' hp'
  rw [List.filter_append, List.filter_cons_of_pos (by simp), hback, List.getLast?_concat]

end Series

/-- The cells of a step are those of the columns at its position. -/
theorem SummaryCase.getElem?_values {series : Series} {name : String} {header : Header}
    {c : SummaryCase} (h : SummaryCase.of name header series = .ok c) {k : Nat}
    {v : SummaryVector} (hv : series.vectors[k]? = some v) {j : Nat} {step : SummaryStep}
    (hstep : c.steps[j]? = some step) :
    step.values[k]? = some (((series.placed v).filter (·.index = j)).getLast?.map (·.value)) := by
  rw [steps_of h, List.getElem?_mapIdx] at hstep
  obtain ⟨point, hpoint, rfl⟩ := Option.map_eq_some_iff.mp hstep
  obtain ⟨hj, -⟩ := List.getElem?_eq_some_iff.mp hpoint
  rw [List.getElem?_map, hv, Series.filter_index_placed hj]
  rfl

/-- **A signal and a summary show the same points.**  For every vector of a series that has a
summary, whatever its points are: the signal has a frame for each point that is placed on the axis,
in order and with its time, its value and the unit, and then one for the end.  The frames are
numbered from 0 on without gaps, and only the last one marks the end.  The cell of each step has the
value of the last point that is placed there, or none, and so the value that was sent last for this
place.  As double-precision numbers, times and values are the numbers that they were. -/
theorem frames_agree_with_cells {series : Series} {name : String} {header : Header}
    {c : SummaryCase} (hc : SummaryCase.of name header series = .ok c) {k : Nat}
    {v : SummaryVector} (hv : series.vectors[k]? = some v) :
    (series.frames v).length = (series.placed v).length + 1
    ∧ (∀ (i : Nat) (f : Frame), (series.frames v)[i]? = some f → f.IsAt i (series.placed v).length)
    ∧ (∀ (i : Nat) (p : Point), (series.placed v)[i]? = some p → ∃ (t : TimePoint) (f : Frame),
      series.timeAxis[p.index]? = some t ∧ (series.frames v)[i]? = some f
      ∧ f.timestamp = .ofBinary32 t.time ∧ f.value = .ofBinary32 p.value ∧ f.description = v.unit)
    ∧ c.steps.length = series.timeAxis.length
    ∧ (∀ (j : Nat) (step : SummaryStep), c.steps[j]? = some step → step.values[k]?
      = some (((series.placed v).filter (·.index = j)).getLast?.map (·.value)))
    ∧ (∀ (front : List Point) (p : Point) (back : List Point),
      series.placed v = front ++ p :: back → (∀ p' ∈ back, p'.index ≠ p.index) →
      ∃ (t : TimePoint) (f : Frame) (step : SummaryStep), series.timeAxis[p.index]? = some t
        ∧ (series.frames v)[front.length]? = some f
        ∧ f.timestamp = .ofBinary32 t.time ∧ f.value = .ofBinary32 p.value ∧ f.description = v.unit
        ∧ c.steps[p.index]? = some step ∧ step.values[k]? = some (some p.value))
    ∧ ∀ x : Binary32, Binary64.Widens x (.ofBinary32 x) := by
  have hsteps : c.steps.length = series.timeAxis.length := by
    rw [SummaryCase.steps_of hc, List.length_mapIdx]
  have hcells := fun (j : Nat) (step : SummaryStep) (h : c.steps[j]? = some step) =>
    SummaryCase.getElem?_values hc hv h
  refine ⟨?_, fun i f => Series.isAt_of_getElem?_frames, ?_, hsteps, hcells, ?_,
    Binary64.widens_ofBinary32⟩
  · rw [Series.length_frames, Series.length_timedValues]
  · intro i p hp
    obtain ⟨t, ht, hframe⟩ := Series.getElem?_frames_of_placed hp
    exact ⟨t, _, ht, hframe, Frame.timestamp_data .., Frame.value_data .., Frame.description_data ..⟩
  · intro front p back hplaced hback
    -- There are as many points before `p` as frames, so its place in the signal is known.
    have hp : (series.placed v)[front.length]? = some p := by
      rw [hplaced, List.getElem?_append_right (Nat.le_refl _), Nat.sub_self]
      rfl
    obtain ⟨t, ht, hframe⟩ := Series.getElem?_frames_of_placed hp
    have hlt : p.index < c.steps.length := hsteps ▸ (List.getElem?_eq_some_iff.mp ht).1
    refine ⟨t, _, c.steps[p.index], ht, hframe, Frame.timestamp_data .., Frame.value_data ..,
      Frame.description_data .., List.getElem?_eq_getElem hlt, ?_⟩
    rw [hcells _ _ (List.getElem?_eq_getElem hlt), hplaced, Series.getLast?_filter_index hback]
    rfl

/-- A vector that no conversion gives: its points are out of order, lead to one place twice and once
beyond the axis. -/
def unorderedVector : SummaryVector :=
  ⟨"FOPR", .padded 4 "QOP", "STB/DAY", [⟨2, ⟨1⟩⟩, ⟨7, ⟨2⟩⟩, ⟨0, ⟨3⟩⟩, ⟨2, ⟨4⟩⟩]⟩

def unorderedSeries : Series :=
  ⟨[unorderedVector], [⟨1, .zero⟩, ⟨2, ⟨0x3F800000⟩⟩, ⟨5, ⟨0x40000000⟩⟩], []⟩

theorem frames_agree_of_unordered :
    ∃ c : SummaryCase, SummaryCase.of "CASE" outOfOrder.header unorderedSeries = .ok c
      ∧ unorderedSeries.vectors[0]? = some unorderedVector
      ∧ c.steps.map (·.values) = [[some ⟨3⟩], [none], [some ⟨4⟩]]
      ∧ (unorderedSeries.frames unorderedVector).length = 3 + 1
      ∧ ∃ (t : TimePoint) (f : Frame) (step : SummaryStep), unorderedSeries.timeAxis[2]? = some t
        ∧ (unorderedSeries.frames unorderedVector)[2]? = some f
        ∧ f.timestamp = .ofBinary32 t.time ∧ f.value = .ofBinary32 ⟨4⟩ ∧ f.description = "STB/DAY"
        ∧ c.steps[2]? = some step ∧ step.values[0]? = some (some ⟨4⟩) := by
  obtain ⟨c, hc, hvalues⟩ : ∃ c,
      SummaryCase.of "CASE" outOfOrder.header unorderedSeries = .ok c
        ∧ c.steps.map (·.values) = [[some ⟨3⟩], [none], [some ⟨4⟩]] := ⟨_, rfl, rfl⟩
  have hv : unorderedSeries.vectors[0]? = some unorderedVector := rfl
  obtain ⟨hlength, -, -, -, -, hlast, -⟩ := frames_agree_with_cells hc hv
  exact ⟨c, hc, hv, hvalues, hlength, hlast [⟨2, ⟨1⟩⟩, ⟨0, ⟨3⟩⟩] ⟨2, ⟨4⟩⟩ [] rfl nofun⟩

end ReservoirPlot
