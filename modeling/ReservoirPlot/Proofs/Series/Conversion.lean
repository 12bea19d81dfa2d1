/-
ReservoirPlot/Proofs/Series/Conversion.lean

What a conversion leaves of the samples.  `seriesWith_eq_ok_iff` says what a
series is made of, once for all that is proved about series: its axis is that of
the selected samples, and its vectors and omissions are the results for the
codes.  From it come

    marks_of_seriesWith        the axis marks the timesteps of the instance
    points_of_seriesWith       the points of a vector are those of its variable

and the main result `vectors_of_seriesWith`: a vector holds each sample of its
variable once, in the order of time and at the sample's own timestep.
-/
import Mathlib.Data.List.Forall2
import ReservoirPlot.Proofs.Series.TimeOrder

namespace ReservoirPlot

/-! ### Results -/

theorem mem_oks {ε α : Type} {results : List (Except ε α)} {a : α} :
    a ∈ oks results ↔ .ok a ∈ results := by
  rw [oks, List.mem_filterMap]
  constructor
  · rintro ⟨r, hr, h⟩
    rcases r with e | b
    · cases h
    · obtain rfl := Option.some.inj h
      exact hr
  · intro h
    exact ⟨.ok a, h, rfl⟩

/-- A vector stands for a variable with a keyword and a unit, and has its points. -/
theorem vectorOf_eq_ok {u : UnitSystem} {table : KeywordTable} {axis : List TimePoint}
    {selected : List Sample} {code : VariableCode} {v : SummaryVector}
    (h : vectorOf u table axis selected code = .ok v) :
    v.code = code ∧ table.keyword? code = some v.keyword
      ∧ u.unitOfCode code.trimmed = .ok v.unit ∧ v.points = pointsOf axis selected code := by
  rw [vectorOf] at h
  rcases hkeyword : table.keyword? code with - | keyword
  · rw [hkeyword] at h
    cases h
  · rcases hunit : u.unitOfCode code.trimmed with cause | unit
    · rw [hkeyword, hunit] at h
      cases h
    · rw [hkeyword, hunit] at h
      obtain rfl := Except.ok.inj h
      exact ⟨rfl, rfl, rfl, rfl⟩

namespace Plot

variable {p : Plot} {className instanceName : String} {table : KeywordTable} {series : Series}

/-- A series has the axis of the selected samples and the results for their codes. -/
theorem seriesWith_eq_ok_iff :
    p.seriesWith className instanceName table = .ok series
      ↔ ∃ axis, timeAxis (p.selected className instanceName) = .ok axis
        ∧ series = ⟨oks ((presentCodes (p.codes className) (p.selected className instanceName)).map
            (vectorOf p.header.unitSystem table axis (p.selected className instanceName))), axis,
          errors ((presentCodes (p.codes className) (p.selected className instanceName)).map
            (vectorOf p.header.unitSystem table axis (p.selected className instanceName)))⟩ := by
  rw [seriesWith]
  constructor
  · intro h
    obtain ⟨axis, haxis, h⟩ := bind_eq_ok_iff.mp h
    exact ⟨axis, haxis, (Except.ok.inj h).symm⟩
  · rintro ⟨axis, haxis, rfl⟩
    exact bind_eq_ok_iff.mpr ⟨axis, haxis, rfl⟩

/-- The axis of a series marks the timesteps of the instance. -/
theorem marks_of_seriesWith (h : p.seriesWith className instanceName table = .ok series) :
    Marks series.timeAxis
      ((p.samplesWhere (some className) (some instanceName) none).map (·.timestep)) := by
  obtain ⟨axis, haxis, rfl⟩ := seriesWith_eq_ok_iff.mp h
  have horder := p.inTimeOrder_selected className instanceName
  apply (marks_timeAxis horder.ascending haxis).congr
  intro t
  exact (horder.perm.map _).mem_iff

/-- A vector of a series is the one that its code has. -/
theorem vectorOf_code (h : p.seriesWith className instanceName table = .ok series)
    {v : SummaryVector} (hv : v ∈ series.vectors) :
    vectorOf p.header.unitSystem table series.timeAxis (p.selected className instanceName) v.code
      = .ok v := by
  obtain ⟨axis, -, rfl⟩ := seriesWith_eq_ok_iff.mp h
  obtain ⟨code, -, hcode⟩ := List.mem_map.mp (mem_oks.mp hv)
  rwa [(vectorOf_eq_ok hcode).1]

/-- The points of a vector are those of its variable among the selected samples. -/
theorem points_of_seriesWith (h : p.seriesWith className instanceName table = .ok series)
    {v : SummaryVector} (hv : v ∈ series.vectors) :
    v.points = pointsOf series.timeAxis (p.selected className instanceName) v.code :=
  (vectorOf_eq_ok (vectorOf_code h hv)).2.2.2

/-- A vector has the keyword of its variable. -/
theorem keyword?_of_seriesWith (h : p.seriesWith className instanceName table = .ok series)
    {v : SummaryVector} (hv : v ∈ series.vectors) : table.keyword? v.code = some v.keyword :=
  (vectorOf_eq_ok (vectorOf_code h hv)).2.1

/-- The unit of a vector is that of its variable. -/
theorem unitOfCode_of_seriesWith (h : p.seriesWith className instanceName table = .ok series)
    {v : SummaryVector} (hv : v ∈ series.vectors) :
    p.header.unitSystem.unitOfCode v.code.trimmed = .ok v.unit :=
  (vectorOf_eq_ok (vectorOf_code h hv)).2.2.1

/-- There is one vector of a variable, though it may come several times. -/
theorem eq_of_code_eq (h : p.seriesWith className instanceName table = .ok series)
    {v w : SummaryVector} (hv : v ∈ series.vectors) (hw : w ∈ series.vectors)
    (hcode : v.code = w.code) : v = w := by
  have hvector := vectorOf_code h hv
  rw [hcode, vectorOf_code h hw] at hvector
  exact (Except.ok.inj hvector).symm

end Plot

/-- Each keyword of a series has a vector. -/
theorem Series.exists_vector? {s : Series} {keyword : String} (h : keyword ∈ s.keywords) :
    ∃ v, s.vector? keyword = some v :=
  Option.isSome_iff_exists.mp ((s.vector?_isSome_iff keyword).mpr h)

/-- The first vector of a keyword is one of the vectors, and has the keyword. -/
theorem Series.mem_of_vector? {s : Series} {first : SummaryVector} {keyword : String}
    (h : s.vector? keyword = some first) : first ∈ s.vectors ∧ first.keyword = keyword := by
  have hkeyword := List.find?_some h
  exact ⟨List.mem_of_find?_eq_some h, of_decide_eq_true hkeyword⟩

/-! ### Points and samples -/

/-- The point has the value of the sample and leads to its timestep on the axis. -/
def Point.Holds (axis : List TimePoint) (point : Point) (s : Sample) : Prop :=
  point.value = s.value ∧ ∃ h : point.index < axis.length, axis[point.index].timestep = s.timestep

/-- **A series holds the samples of its variables, each once and at its timestep.**  The samples
of a vector are those of the instance that have the variable of the vector, in the order of their
timesteps; there is one point for each of them. -/
theorem Plot.vectors_of_seriesWith {p : Plot} {className instanceName : String}
    {table : KeywordTable} {series : Series}
    (h : p.seriesWith className instanceName table = .ok series) :
    ∀ v ∈ series.vectors, ∃ samples,
      InTimeOrder samples
        ((p.samplesWhere (some className) (some instanceName) none).filter (·.code = v.code))
      ∧ List.Forall₂ (Point.Holds series.timeAxis) v.points samples := by
  intro v hv
  have horder := p.inTimeOrder_selected className instanceName
  have hmarks := marks_of_seriesWith h
  refine ⟨(p.selected className instanceName).filter (·.code = v.code), horder.filter _, ?_⟩
  rw [points_of_seriesWith h hv, pointsOf, List.forall₂_map_left_iff, List.forall₂_same]
  intro s hs
  have hmem : s ∈ p.samplesWhere (some className) (some instanceName) none :=
    horder.perm.mem_iff.mp (List.mem_filter.mp hs).1
  obtain ⟨point, hpoint, htimestep⟩ := hmarks.exists_getElem? (List.mem_map_of_mem hmem)
  obtain ⟨hlt, hget⟩ := List.getElem?_eq_some_iff.mp hpoint
  refine ⟨rfl, hlt, ?_⟩
  show (series.timeAxis[axisIndex series.timeAxis s.timestep]).timestep = s.timestep
  rw [hget, htimestep]

/-- A sample of the class `WELL`. -/
def wellSample (timestep : Int32) (instanceName code : String) (value : UInt32) : Sample :=
  ⟨timestep, .zero, 0, Token.padded 8 "WELL", Token.padded 8 instanceName, Token.padded 4 code,
    ⟨value⟩⟩

/-- A plot whose timesteps descend below zero and come back, with one variable twice at the
last of them. -/
def outOfOrder : Plot where
  header := .ofFields .english [1, 1, 1, 1980, 10, 10, 3, 0]
  catalog := .ofEntries [(Token.padded 8 "WELL", [Token.padded 4 "QOP", Token.padded 4 "WCUT"])]
  samples := [wellSample 5 "P1" "QOP" 3, wellSample 5 "P2" "QOP" 9, wellSample (-2) "P1" "QOP" 2,
    wellSample 5 "P1" "WCUT" 1, wellSample 5 "P1" "QOP" 7]

/-- The series of one of the wells. -/
def outOfOrderSeries : Series where
  vectors := [⟨"FOPR", Token.padded 4 "QOP", "STB/DAY", [⟨0, ⟨2⟩⟩, ⟨1, ⟨3⟩⟩, ⟨1, ⟨7⟩⟩]⟩,
    ⟨"FWCT", Token.padded 4 "WCUT", "STB/STB", [⟨1, ⟨1⟩⟩]⟩]
  timeAxis := [⟨-2, .zero⟩, ⟨5, .zero⟩]
  skipped := []

theorem selected_outOfOrder : outOfOrder.selected "WELL" "P1" = [wellSample (-2) "P1" "QOP" 2,
    wellSample 5 "P1" "QOP" 3, wellSample 5 "P1" "WCUT" 1, wellSample 5 "P1" "QOP" 7] := by
  refine (outOfOrder.inTimeOrder_selected "WELL" "P1").eq ⟨?_, ?_, ?_⟩
  · decide +kernel
  · decide +kernel
  · intro t
    have hsamples : outOfOrder.samplesWhere (some "WELL") (some "P1") none
        = [wellSample 5 "P1" "QOP" 3, wellSample (-2) "P1" "QOP" 2, wellSample 5 "P1" "WCUT" 1,
          wellSample 5 "P1" "QOP" 7] := by
      decide +kernel
    rw [hsamples]
    by_cases hlast : t = 5
    · subst hlast
      decide +kernel
    · have hne : ∀ instanceName code value,
          ¬ (wellSample 5 instanceName code value).timestep = t :=
        fun _ _ _ => Ne.symm hlast
      simp only [List.filter_cons, hne, decide_false, Bool.false_eq_true, if_false]

theorem seriesWith_outOfOrder :
    outOfOrder.seriesWith "WELL" "P1" .field = .ok outOfOrderSeries := by
  rw [Plot.seriesWith, selected_outOfOrder]
  decide +kernel

theorem vectors_of_outOfOrder :
    outOfOrder.seriesWith "WELL" "P1" .field = .ok outOfOrderSeries
      ∧ ∀ v ∈ outOfOrderSeries.vectors, ∃ samples,
        InTimeOrder samples
          ((outOfOrder.samplesWhere (some "WELL") (some "P1") none).filter (·.code = v.code))
        ∧ List.Forall₂ (Point.Holds outOfOrderSeries.timeAxis) v.points samples :=
  ⟨seriesWith_outOfOrder, Plot.vectors_of_seriesWith seriesWith_outOfOrder⟩

end ReservoirPlot
