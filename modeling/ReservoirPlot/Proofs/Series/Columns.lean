/-
ReservoirPlot/Proofs/Series/Columns.lean

How often a variable comes in a series under the fixed keywords.  What is
converted and what is left out are together the codes of the catalog that the
instance has, each as often as the catalog lists it (`Plot.perm_codes_of_seriesWith`).
Since nothing keeps a file from listing one code several times, a series may have
a vector several times, and then the copies are equal: each holds all samples of
the variable, and looking one up by its keyword gives the same vector.

Main results: `columns_of_series`, and `keywords_of_repeatedCode` for a file whose
series has one keyword twice.
-/
import ReservoirPlot.Proofs.Series.Variables

namespace ReservoirPlot

namespace Plot

variable {bytes : List UInt8} {p : Plot} {className instanceName : String}
  {table : KeywordTable} {series : Series}

/-- The variables of a series are those of the catalog that the instance has, as often as the
catalog lists them. -/
theorem perm_codes_of_seriesWith (hdecode : decode (.ofBytes bytes) = .ok p)
    (h : p.seriesWith className instanceName table = .ok series) :
    (series.codes ++ series.skippedCodes).Perm
      ((p.codes className).filter (p.hasVariable className instanceName)) := by
  rw [codes_of_seriesWith hdecode h, skippedCodes_of_seriesWith hdecode h]
  exact List.filter_append_perm _ _

/-- Under the fixed keywords, the keywords are distinct if the variables are. -/
theorem nodup_keywords_iff (h : p.seriesWith className instanceName .field = .ok series) :
    series.keywords.Nodup ↔ series.codes.Nodup := by
  rw [Series.keywords, Series.codes, List.Nodup, List.Nodup, List.pairwise_map, List.pairwise_map]
  apply List.Pairwise.iff_of_mem
  intro v w hv hw
  -- Two vectors have one keyword exactly if they have one code, as no two entries of the table
  -- share a keyword and vectors of one code are equal.
  refine not_congr ⟨code_eq_of_seriesWith_field h hv hw, fun hcode => ?_⟩
  rw [eq_of_code_eq h hv hw hcode]

/-- Under the fixed keywords, a vector is found by its keyword. -/
theorem vector?_keyword (h : p.seriesWith className instanceName .field = .ok series)
    {v : SummaryVector} (hv : v ∈ series.vectors) : series.vector? v.keyword = some v := by
  obtain ⟨first, hfirst⟩ := Series.exists_vector? (List.mem_map_of_mem hv)
  obtain ⟨hmem, hkeyword⟩ := Series.mem_of_vector? hfirst
  -- It may be another copy, but it is of the same variable, and so the same vector.
  have hcode := code_eq_of_seriesWith_field h hmem hv hkeyword
  rw [hfirst, eq_of_code_eq h hmem hv hcode]

/-- A variable of the instance that the fixed table names has as many vectors as the catalog
lists it. -/
theorem length_vectors_of_seriesWith (hdecode : decode (.ofBytes bytes) = .ok p)
    (h : p.seriesWith className instanceName .field = .ok series) {code : VariableCode}
    (hhas : p.hasVariable className instanceName code)
    (hkeyword : (KeywordTable.field.keyword? code).isSome) :
    (series.vectors.filter (·.code = code)).length = (p.codes className).count code := by
  have hcount : series.codes.count code = (p.codes className).count code := by
    rw [codes_of_seriesWith hdecode h, List.count_filter (isConvertible_field.trans hkeyword),
      List.count_filter hhas]
  rw [← hcount, Series.codes, List.count, List.countP_map, List.countP_eq_length_filter]
  congr 1

/-- The samples of a variable have points in all of its vectors. -/
theorem point_mem_of_seriesWith (h : p.seriesWith className instanceName table = .ok series)
    {s : Sample} (hs : s ∈ p.samplesWhere (some className) (some instanceName) none)
    {v : SummaryVector} (hv : v ∈ series.vectors) (hcode : v.code = s.code) :
    ⟨axisIndex series.timeAxis s.timestep, s.value⟩ ∈ v.points := by
  rw [points_of_seriesWith h hv, pointsOf]
  refine List.mem_map.mpr ⟨s, List.mem_filter.mpr ⟨?_, decide_eq_true hcode.symm⟩, rfl⟩
  exact (p.selected_perm className instanceName).mem_iff.mpr hs

end Plot

/-- **A series has a variable as often as the catalog lists it.**  Under the fixed keywords, the
variables of a series, converted and left out, are distinct exactly if the catalog lists none of
them twice, and so are the keywords of its vectors.  A vector is found by its keyword in any case.
A sample of a variable with a keyword has its point in each of the vectors of the variable, which
are as many as the catalog lists it. -/
theorem columns_of_series {bytes : List UInt8} {p : Plot} {className instanceName : String}
    {series : Series} (hdecode : Plot.decode (.ofBytes bytes) = .ok p)
    (h : p.seriesWith className instanceName .field = .ok series) :
    (series.codes ++ series.skippedCodes).Perm
      ((p.codes className).filter (p.hasVariable className instanceName))
    ∧ ((series.codes ++ series.skippedCodes).Nodup
      ↔ ((p.codes className).filter (p.hasVariable className instanceName)).Nodup)
    ∧ (series.keywords.Nodup
      ↔ (((p.codes className).filter (p.hasVariable className instanceName)).filter
        fun code => (KeywordTable.field.keyword? code).isSome).Nodup)
    ∧ (∀ v ∈ series.vectors, series.vector? v.keyword = some v)
    ∧ ∀ s ∈ p.samplesWhere (some className) (some instanceName) none,
      (KeywordTable.field.keyword? s.code).isSome →
        (series.vectors.filter (·.code = s.code)).length = (p.codes className).count s.code
        ∧ ∀ v ∈ series.vectors, v.code = s.code →
          ⟨axisIndex series.timeAxis s.timestep, s.value⟩ ∈ v.points := by
  have hperm := Plot.perm_codes_of_seriesWith hdecode h
  refine ⟨hperm, hperm.nodup_iff, ?_, fun v hv => Plot.vector?_keyword h hv, ?_⟩
  · rw [Plot.nodup_keywords_iff h, Plot.codes_of_seriesWith hdecode h]
    have hfixed : isConvertible .field = fun code => (KeywordTable.field.keyword? code).isSome :=
      funext fun _ => isConvertible_field
    rw [hfixed]
  · intro s hs hkeyword
    exact ⟨Plot.length_vectors_of_seriesWith hdecode h (Plot.hasVariable_iff.mpr ⟨s, hs, rfl⟩)
      hkeyword, fun v hv hcode => Plot.point_mem_of_seriesWith h hs hv hcode⟩

theorem columns_of_repeatedCode :
    Plot.decode (.ofBytes repeatedCode.bytes) = .ok repeatedCode.plot
      ∧ repeatedCode.plot.seriesWith "FIELD" "NETWORK" .field = .ok (repeatedSeries .noKeyword)
      ∧ ((repeatedSeries .noKeyword).codes ++ (repeatedSeries .noKeyword).skippedCodes).Perm
        ((repeatedCode.plot.codes "FIELD").filter
          (repeatedCode.plot.hasVariable "FIELD" "NETWORK"))
      ∧ (repeatedSeries .noKeyword).vector? "FOPR" = some repeatedVector
      ∧ ∀ s ∈ repeatedCode.plot.samplesWhere (some "FIELD") (some "NETWORK") none,
        (KeywordTable.field.keyword? s.code).isSome →
          ((repeatedSeries .noKeyword).vectors.filter (·.code = s.code)).length
            = (repeatedCode.plot.codes "FIELD").count s.code := by
  have hdecode := repeatedCode.decode_bytes
  obtain ⟨hperm, -, -, hfound, hsamples⟩ := columns_of_series hdecode seriesWith_repeatedCode
  exact ⟨hdecode, seriesWith_repeatedCode, hperm,
    hfound repeatedVector List.mem_cons_self, fun s hs hkeyword => (hsamples s hs hkeyword).1⟩

/-- A file decodes and converts although its catalog lists a code twice: the series has one
variable and one keyword twice, and each sample of the variable counts in two vectors. -/
theorem keywords_of_repeatedCode :
    Plot.decode (.ofBytes repeatedCode.bytes) = .ok repeatedCode.plot
      ∧ repeatedCode.plot.seriesWith "FIELD" "NETWORK" .field = .ok (repeatedSeries .noKeyword)
      ∧ ¬ ((repeatedSeries .noKeyword).codes ++ (repeatedSeries .noKeyword).skippedCodes).Nodup
      ∧ (repeatedSeries .noKeyword).keywords = ["FOPR", "FOPR"]
      ∧ ∃ s ∈ repeatedCode.plot.samplesWhere (some "FIELD") (some "NETWORK") none,
        ((repeatedSeries .noKeyword).vectors.filter (·.code = s.code)).length = 2 :=
  ⟨repeatedCode.decode_bytes, seriesWith_repeatedCode, by decide +kernel, by decide +kernel,
    by decide +kernel⟩

end ReservoirPlot
