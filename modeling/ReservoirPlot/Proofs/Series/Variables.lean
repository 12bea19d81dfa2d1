/-
ReservoirPlot/Proofs/Series/Variables.lean

What becomes of the variables of an instance.  A variable is converted if it has
a keyword, which the table gives for its exact token, and a measure, which is that
of its text without the white space at its end (`Text.TrimmedEnd`); otherwise it is
left out, and the series says why (`Skipped.IsOmission`).

A conversion goes through the codes of the catalog, then through any others that
its samples have.  Of a decoded plot the catalog has them all
(`Plot.presentCodes_of_decode`), so what it converts and what it leaves out are two
choices from the same list, `codes_of_seriesWith` and `skipped_of_seriesWith`.
They complement each other, whatever the catalog may repeat.

Main result: `variables_of_series`.
-/
import ReservoirPlot.Proofs.CommandLine.Log
import ReservoirPlot.Proofs.Plot.Queries
import ReservoirPlot.Proofs.Series.Keywords

namespace ReservoirPlot

/-- The codes of the vectors, in order. -/
def Series.codes (s : Series) : List VariableCode :=
  s.vectors.map (·.code)

/-! ### One variable -/

/-- Whether a variable has a keyword and a measure. -/
def isConvertible (table : KeywordTable) (code : VariableCode) : Bool :=
  (table.keyword? code).isSome && (Measure.ofCode? code.trimmed).isSome

/-- What a series says of a variable that it leaves out. -/
def omission (table : KeywordTable) (code : VariableCode) : Skipped :=
  match table.keyword? code with
  | none => ⟨code, .noKeyword⟩
  | some keyword => ⟨code, .noUnit keyword ⟨Text.trimEnd code.trimmed⟩⟩

/-- The warning about a variable that is left out. -/
def omissionText (table : KeywordTable) (code : VariableCode) : String :=
  match table.keyword? code with
  | none => "Could not convert nexus variable " ++ code.trimmed ++ " to a summary keyword"
  | some keyword => "Skipping " ++ code.trimmed ++ " (" ++ keyword ++ "): "
      ++ ("unknown variable: " ++ Text.quoted (Text.trimEnd code.trimmed))

/-- The series says rightly why it leaves a variable out: it has no keyword, or there is no measure
of its text without the white space at the end. -/
inductive Skipped.IsOmission (table : KeywordTable) : Skipped → Prop
  | noKeyword {code : VariableCode} (hkeyword : table.keyword? code = none) :
    IsOmission table ⟨code, .noKeyword⟩
  | noUnit {code : VariableCode} {keyword text : String}
    (hkeyword : table.keyword? code = some keyword) (htext : Text.TrimmedEnd text code.trimmed)
    (hmeasure : Measure.ofBareCode? text = none) :
    IsOmission table ⟨code, .noUnit keyword ⟨text⟩⟩

/-- The warning about a variable that is left out says why. -/
inductive IsWarning (table : KeywordTable) (code : VariableCode) : String → Prop
  | noKeyword (hkeyword : table.keyword? code = none) : IsWarning table code
    ("Could not convert nexus variable " ++ code.trimmed ++ " to a summary keyword")
  | noUnit {keyword text : String} (hkeyword : table.keyword? code = some keyword)
    (htext : Text.TrimmedEnd text code.trimmed) : IsWarning table code
    ("Skipping " ++ code.trimmed ++ " (" ++ keyword ++ "): "
      ++ ("unknown variable: " ++ Text.quoted text))

section

variable {table : KeywordTable} {code : VariableCode}

/-- The measure of a code is that of its text without the white space at the end. -/
theorem ofCode?_eq_some_iff {text : String} {m : Measure} : Measure.ofCode? text = some m
    ↔ ∃ trimmed, Text.TrimmedEnd trimmed text ∧ Measure.ofBareCode? trimmed = some m := by
  simp only [Text.trimmedEnd_iff, exists_eq_left]
  rfl

theorem isConvertible_iff : isConvertible table code
    ↔ (∃ keyword, table.keyword? code = some keyword)
      ∧ ∃ text m, Text.TrimmedEnd text code.trimmed ∧ Measure.ofBareCode? text = some m := by
  rw [isConvertible, Bool.and_eq_true, Option.isSome_iff_exists, Option.isSome_iff_exists,
    exists_comm]
  simp only [ofCode?_eq_some_iff]

theorem isOmission_omission (h : isConvertible table code = false) :
    (omission table code).IsOmission table := by
  rw [isConvertible] at h
  rw [omission]
  rcases hkeyword : table.keyword? code with - | keyword
  · exact .noKeyword hkeyword
  · rw [hkeyword, Option.isSome_some, Bool.true_and, Option.isSome_eq_false_iff,
      Option.isNone_iff_eq_none] at h
    exact .noUnit hkeyword (Text.trimmedEnd_iff.mpr rfl) h

theorem isWarning_omissionText (table : KeywordTable) (code : VariableCode) :
    IsWarning table code (omissionText table code) := by
  rw [omissionText]
  rcases hkeyword : table.keyword? code with - | keyword
  · exact .noKeyword hkeyword
  · exact .noUnit hkeyword (Text.trimmedEnd_iff.mpr rfl)

theorem code_omission : (omission table code).code = code := by
  rw [omission]
  split <;> rfl

theorem warning_omission : (omission table code).warning = omissionText table code := by
  rw [omission, omissionText]
  split <;> rfl

/-- A variable that is convertible has a vector, with the unit of its measure; any other has an
omission. -/
theorem vectorOf_cases (u : UnitSystem) (table : KeywordTable) (axis : List TimePoint)
    (selected : List Sample) (code : VariableCode) :
    (isConvertible table code ∧ ∃ v, vectorOf u table axis selected code = .ok v ∧ v.code = code)
    ∨ (isConvertible table code = false
      ∧ vectorOf u table axis selected code = .error (omission table code)) := by
  rw [isConvertible, omission, vectorOf, UnitSystem.unitOfCode]
  -- The keyword is asked for first, so a variable that lacks both lacks its keyword.
  rcases table.keyword? code with - | keyword
  · exact .inr ⟨rfl, rfl⟩
  · rcases Measure.ofCode? code.trimmed with - | m
    · exact .inr ⟨rfl, rfl⟩
    · exact .inl ⟨rfl, _, rfl, rfl⟩

/-- The unit of a variable is that of its measure. -/
theorem exists_measure_of_unitOfCode {u : UnitSystem} {unit : String}
    (h : u.unitOfCode code.trimmed = .ok unit) : ∃ text m, Text.TrimmedEnd text code.trimmed
      ∧ Measure.ofBareCode? text = some m ∧ unit = u.unit m := by
  rw [UnitSystem.unitOfCode] at h
  split at h
  · next m hm =>
    obtain ⟨text, htext, hmeasure⟩ := ofCode?_eq_some_iff.mp hm
    exact ⟨text, m, htext, hmeasure, (Except.ok.inj h).symm⟩
  · cases h

/-- Every variable of the fixed table has a measure. -/
theorem isConvertible_field :
    isConvertible .field code = (KeywordTable.field.keyword? code).isSome := by
  have hmeasure : ∀ entry ∈ KeywordTable.field.entries,
      (Measure.ofCode? entry.1.trimmed).isSome := by
    decide +kernel
  rw [isConvertible]
  rcases h : KeywordTable.field.keyword? code with - | keyword
  · rfl
  · rw [hmeasure _ (KeywordTable.mem_entries_of_keyword? h)]
    rfl

end

/-! ### All variables -/

section

variable {u : UnitSystem} {table : KeywordTable} {axis : List TimePoint} {selected : List Sample}

/-- The vectors of some codes are those of the convertible ones. -/
theorem codes_oks (codes : List VariableCode) :
    (oks (codes.map (vectorOf u table axis selected))).map (·.code)
      = codes.filter (isConvertible table) := by
  induction codes with
  | nil => rfl
  | cons code codes ih =>
    rw [List.map_cons, oks]
    rcases vectorOf_cases u table axis selected code with ⟨h, v, hv, hcode⟩ | ⟨h, herror⟩
    · rw [hv, List.filterMap_cons, List.filter_cons_of_pos h, List.map_cons, hcode]
      exact congrArg (code :: ·) ih
    · rw [herror, List.filterMap_cons, List.filter_cons_of_neg (Bool.eq_false_iff.mp h)]
      exact ih

/-- The omissions of some codes are those of the others. -/
theorem errors_map (codes : List VariableCode) :
    errors (codes.map (vectorOf u table axis selected))
      = (codes.filter (!isConvertible table ·)).map (omission table) := by
  induction codes with
  | nil => rfl
  | cons code codes ih =>
    rw [List.map_cons, errors]
    rcases vectorOf_cases u table axis selected code with ⟨h, v, hv, -⟩ | ⟨h, herror⟩
    · rw [hv, List.filterMap_cons, List.filter_cons_of_neg (by simpa using h)]
      exact ih
    · rw [herror, List.filterMap_cons, List.filter_cons_of_pos (by simpa using h), List.map_cons]
      exact congrArg (omission table code :: ·) ih

end

/-- Codes that are all known need not be added. -/
theorem appendSeen_eq_self {codes : List VariableCode} {samples : List Sample}
    (h : ∀ s ∈ samples, s.code ∈ codes) : appendSeen codes samples = codes := by
  induction samples with
  | nil => rfl
  | cons s samples ih =>
    obtain ⟨hs, hsamples⟩ := List.forall_mem_cons.mp h
    rw [appendSeen, List.foldl_cons, if_pos hs]
    exact ih hsamples

namespace Plot

/-- Whether an instance has a sample of the variable. -/
def hasVariable (p : Plot) (className instanceName : String) (code : VariableCode) : Bool :=
  (p.samplesWhere (some className) (some instanceName) none).any (·.code = code)

variable {bytes : List UInt8} {p : Plot} {className instanceName : String} {code : VariableCode}
  {table : KeywordTable} {series : Series}

theorem hasVariable_iff : p.hasVariable className instanceName code
    ↔ ∃ s ∈ p.samplesWhere (some className) (some instanceName) none, s.code = code := by
  rw [hasVariable, List.any_eq_true]
  simp only [decide_eq_true_eq]

/-- A conversion of a decoded plot goes through the codes of the catalog that the instance has,
and through no others. -/
theorem presentCodes_of_decode (hdecode : decode (.ofBytes bytes) = .ok p)
    (className instanceName : String) :
    presentCodes (p.codes className) (p.selected className instanceName)
      = (p.codes className).filter (p.hasVariable className instanceName) := by
  have hperm := p.selected_perm className instanceName
  rw [presentCodes, appendSeen_eq_self fun s hs =>
    code_mem_of_decode hdecode (hperm.mem_iff.mp hs)]
  apply List.filter_congr
  intro code _
  exact hperm.any_eq

/-- The variables with a vector, in the order of the catalog. -/
theorem codes_of_seriesWith (hdecode : decode (.ofBytes bytes) = .ok p)
    (h : p.seriesWith className instanceName table = .ok series) :
    series.codes = ((p.codes className).filter (p.hasVariable className instanceName)).filter
      (isConvertible table) := by
  obtain ⟨axis, -, rfl⟩ := seriesWith_eq_ok_iff.mp h
  rw [Series.codes, codes_oks, presentCodes_of_decode hdecode]

/-- The variables without one, in the order of the catalog. -/
theorem skipped_of_seriesWith (hdecode : decode (.ofBytes bytes) = .ok p)
    (h : p.seriesWith className instanceName table = .ok series) :
    series.skipped = (((p.codes className).filter (p.hasVariable className instanceName)).filter
      (!isConvertible table ·)).map (omission table) := by
  obtain ⟨axis, -, rfl⟩ := seriesWith_eq_ok_iff.mp h
  rw [errors_map, presentCodes_of_decode hdecode]

theorem skippedCodes_of_seriesWith (hdecode : decode (.ofBytes bytes) = .ok p)
    (h : p.seriesWith className instanceName table = .ok series) :
    series.skippedCodes = ((p.codes className).filter
      (p.hasVariable className instanceName)).filter (!isConvertible table ·) := by
  rw [Series.skippedCodes, skipped_of_seriesWith hdecode h, List.map_map]
  exact (List.map_congr_left fun code _ => code_omission).trans (List.map_id _)

/-- In the codes of the catalog that an instance has, a code stands exactly if the instance has
it. -/
theorem mem_filter_hasVariable (hdecode : decode (.ofBytes bytes) = .ok p) :
    code ∈ (p.codes className).filter (p.hasVariable className instanceName)
      ↔ p.hasVariable className instanceName code := by
  rw [List.mem_filter]
  refine ⟨And.right, fun hhas => ⟨?_, hhas⟩⟩
  obtain ⟨s, hs, rfl⟩ := hasVariable_iff.mp hhas
  exact code_mem_of_decode hdecode hs

end Plot

/-- **Every variable of an instance is converted, or left out for a reason that is given.**  In a
decoded plot, a variable that the instance has is converted if it has a keyword and a measure, and
its vector has that keyword and the unit of that measure; otherwise it is left out with the one that
it lacks.  Both follow the order of the catalog.  There is one warning for each omission, in that
order, and a conversion says these before anything else.  With the fixed keywords alone, only a
variable without an entry is left out. -/
theorem variables_of_series {bytes : List UInt8} {p : Plot} {o : SeriesOptions} {series : Series}
    (hdecode : Plot.decode (.ofBytes bytes) = .ok p) (h : p.series o = .ok series) :
    (∀ code, code ∈ series.codes
      ↔ (∃ s ∈ p.samplesWhere (some o.className) (some o.instanceName) none, s.code = code)
        ∧ (∃ keyword, o.table.keyword? code = some keyword)
        ∧ ∃ text m, Text.TrimmedEnd text code.trimmed ∧ Measure.ofBareCode? text = some m)
    ∧ (∀ code, code ∈ series.skippedCodes
      ↔ (∃ s ∈ p.samplesWhere (some o.className) (some o.instanceName) none, s.code = code)
        ∧ code ∉ series.codes)
    ∧ (∀ v ∈ series.vectors, o.table.keyword? v.code = some v.keyword
      ∧ ∃ text m, Text.TrimmedEnd text v.code.trimmed ∧ Measure.ofBareCode? text = some m
        ∧ v.unit = p.header.unitSystem.unit m)
    ∧ series.codes = (p.codes o.className).filter (· ∈ series.codes)
    ∧ series.skippedCodes = (p.codes o.className).filter (· ∈ series.skippedCodes)
    ∧ (∀ x ∈ series.skipped, x.IsOmission o.table)
    ∧ List.Forall₂ (IsWarning o.table) series.skippedCodes series.warnings
    ∧ (∃ text later, (CommandLine.convert p o).Says
        (series.warnings.map (fun warning => ⟨.warning, Text.visible warning⟩)
          ++ ⟨.debug, text⟩ :: later) series)
    ∧ (o.keywords = [] → ∀ code,
      (∃ s ∈ p.samplesWhere (some o.className) (some o.instanceName) none, s.code = code) →
        (code ∈ series.skippedCodes ↔ KeywordTable.field.keyword? code = none)) := by
  -- Both lists are filters of one list by `isConvertible`, so the rest is about its two values.
  have hcodes := Plot.codes_of_seriesWith hdecode h
  have hskipped := Plot.skipped_of_seriesWith hdecode h
  have hskippedCodes := Plot.skippedCodes_of_seriesWith hdecode h
  have hmem : ∀ code, code ∈ series.codes
      ↔ p.hasVariable o.className o.instanceName code ∧ isConvertible o.table code := by
    intro code
    rw [hcodes, List.mem_filter, Plot.mem_filter_hasVariable hdecode]
  have hmemSkipped : ∀ code, code ∈ series.skippedCodes
      ↔ p.hasVariable o.className o.instanceName code ∧ isConvertible o.table code = false := by
    intro code
    rw [hskippedCodes, List.mem_filter, Plot.mem_filter_hasVariable hdecode, Bool.not_eq_true']
  have hwarnings : series.warnings = series.skippedCodes.map (omissionText o.table) := by
    rw [Series.warnings, hskipped, hskippedCodes, List.map_map]
    exact List.map_congr_left fun code _ => warning_omission
  refine ⟨?_, ?_, ?_, ?_, ?_, ?_, ?_, ?_, ?_⟩
  · intro code
    rw [hmem, Plot.hasVariable_iff, isConvertible_iff]
  · intro code
    rw [hmemSkipped, hmem, ← Plot.hasVariable_iff]
    apply and_congr_right
    intro hhas
    rw [and_iff_right hhas, Bool.not_eq_true]
  · intro v hv
    exact ⟨Plot.keyword?_of_seriesWith h hv,
      exists_measure_of_unitOfCode (Plot.unitOfCode_of_seriesWith h hv)⟩
  · conv_lhs => rw [hcodes, List.filter_filter]
    apply List.filter_congr
    intro code _
    rw [Bool.eq_iff_iff, decide_eq_true_iff, hmem, Bool.and_eq_true, and_comm]
  · conv_lhs => rw [hskippedCodes, List.filter_filter]
    apply List.filter_congr
    intro code _
    rw [Bool.eq_iff_iff, decide_eq_true_iff, hmemSkipped, Bool.and_eq_true, Bool.not_eq_true',
      and_comm]
  · intro x hx
    rw [hskipped] at hx
    obtain ⟨code, hcode, rfl⟩ := List.mem_map.mp hx
    have hlacks := (List.mem_filter.mp hcode).2
    rw [Bool.not_eq_true'] at hlacks
    exact isOmission_omission hlacks
  · rw [hwarnings, List.forall₂_map_right_iff, List.forall₂_same]
    exact fun code _ => isWarning_omissionText o.table code
  · -- The log begins with the warnings of the series, whatever the program says after them.
    exact ⟨_, _, CommandLine.says_convert h⟩
  · intro ho code hhas
    rw [hmemSkipped, and_iff_right (Plot.hasVariable_iff.mpr hhas),
      SeriesOptions.table_eq_field ho, isConvertible_field, Option.isSome_eq_false_iff,
      Option.isNone_iff_eq_none]

/-- A file whose catalog gives one code of the field twice, and in which the field also has a
variable without a measure and one without a keyword. -/
def repeatedCode : PlotFile where
  headerPart := ratesFile.headerPart
  catalogPart := ⟨.padded 8 "", .padded 8 "", .padded 8 "",
    [⟨.padded 8 "FIELD", .padded 4 "TIME", [.padded 4 "QOP", .padded 4 "ZZZ", .padded 4 "QOP",
      .padded 4 "BHP"], .padded 8 ""⟩], by decide⟩
  blocks := [⟨.padded 8 "FIELD", [.padded 4 "QOP", .padded 4 "ZZZ", .padded 4 "QOP",
    .padded 4 "BHP"], .padded 8 "", ⟨0x3F800000⟩, .zero, ⟨0x3F800000⟩, ⟨0x3F800000⟩, .zero,
    [⟨.padded 8 "", .padded 8 "NETWORK", .padded 64 "",
      [⟨0x41480000⟩, .zero, ⟨0x40A00000⟩, ⟨0x42C80000⟩], rfl⟩],
    .padded 8 "", padded_field_ne_stopTag, by decide, by decide⟩]
  length_classes := rfl

/-- Options that give the variable without a measure a keyword. -/
def unmeasuredOptions : SeriesOptions :=
  { SeriesOptions.default with keywords := [("ZZZ", "FZZZ")] }

/-- The vector of the repeated code, which holds both values. -/
def repeatedVector : SummaryVector :=
  ⟨"FOPR", .padded 4 "QOP", "SM3/DAY", [⟨0, ⟨0x41480000⟩⟩, ⟨0, ⟨0x40A00000⟩⟩]⟩

/-- The series of the file under a table, as far as it depends on the keyword of `ZZZ`. -/
def repeatedSeries (cause : SkipCause) : Series where
  vectors := [repeatedVector, repeatedVector]
  timeAxis := [⟨1, .zero⟩]
  skipped := [⟨.padded 4 "ZZZ", cause⟩, ⟨.padded 4 "BHP", .noKeyword⟩]

theorem series_unmeasured : repeatedCode.plot.series unmeasuredOptions
    = .ok (repeatedSeries (.noUnit "FZZZ" ⟨"ZZZ"⟩)) := by
  show repeatedCode.plot.seriesWith "FIELD" "NETWORK" _ = _
  rw [Plot.seriesWith, Plot.selected_of_ascending (by decide +kernel)]
  decide +kernel

theorem seriesWith_repeatedCode : repeatedCode.plot.seriesWith "FIELD" "NETWORK" .field
    = .ok (repeatedSeries .noKeyword) := by
  rw [Plot.seriesWith, Plot.selected_of_ascending (by decide +kernel)]
  decide +kernel

theorem series_repeatedCode :
    repeatedCode.plot.series .default = .ok (repeatedSeries .noKeyword) := by
  rw [Plot.series, SeriesOptions.table_eq_field rfl]
  exact seriesWith_repeatedCode

/-- A file with one variable, whose code ends in a tab.  A tab is white space but no padding. -/
def tabbedCode : PlotFile where
  headerPart := ratesFile.headerPart
  catalogPart := ⟨.padded 8 "", .padded 8 "", .padded 8 "",
    [⟨.padded 8 "FIELD", .padded 4 "TIME", [.padded 4 "QOP\t"], .padded 8 ""⟩], by decide⟩
  blocks := [⟨.padded 8 "FIELD", [.padded 4 "QOP\t"], .padded 8 "", ⟨0x3F800000⟩, .zero,
    ⟨0x3F800000⟩, ⟨0x3F800000⟩, .zero,
    [⟨.padded 8 "", .padded 8 "NETWORK", .padded 64 "", [⟨0x40A00000⟩], rfl⟩],
    .padded 8 "", padded_field_ne_stopTag, by decide, by decide⟩]
  length_classes := rfl

/-- Options that give the variable with the tab a keyword. -/
def tabbedOptions : SeriesOptions :=
  { SeriesOptions.default with keywords := [("QOP\t", "FTAB")] }

def tabbedSeries : Series :=
  ⟨[⟨"FTAB", .padded 4 "QOP\t", "SM3/DAY", [⟨0, ⟨0x40A00000⟩⟩]⟩], [⟨1, .zero⟩], []⟩

theorem series_tabbedCode : tabbedCode.plot.series tabbedOptions = .ok tabbedSeries := by
  show tabbedCode.plot.seriesWith "FIELD" "NETWORK" _ = _
  rw [Plot.seriesWith, Plot.selected_of_ascending (by decide +kernel)]
  decide +kernel

theorem variables_of_repeatedCode :
    Plot.decode (.ofBytes repeatedCode.bytes) = .ok repeatedCode.plot
      ∧ repeatedCode.plot.series unmeasuredOptions
        = .ok (repeatedSeries (.noUnit "FZZZ" ⟨"ZZZ"⟩))
      ∧ (∃ text later, (CommandLine.convert repeatedCode.plot unmeasuredOptions).Says
        ([⟨.warning, "Skipping ZZZ (FZZZ): unknown variable: \"ZZZ\""⟩,
          ⟨.warning, "Could not convert nexus variable BHP to a summary keyword"⟩]
          ++ ⟨.debug, text⟩ :: later) (repeatedSeries (.noUnit "FZZZ" ⟨"ZZZ"⟩)))
      ∧ repeatedCode.plot.series .default = .ok (repeatedSeries .noKeyword)
      ∧ SeriesOptions.default.keywords = []
      ∧ (∀ code, (∃ s ∈ repeatedCode.plot.samplesWhere (some "FIELD") (some "NETWORK") none,
          s.code = code) → (code ∈ (repeatedSeries .noKeyword).skippedCodes
            ↔ KeywordTable.field.keyword? code = none))
      ∧ Plot.decode (.ofBytes tabbedCode.bytes) = .ok tabbedCode.plot
      ∧ tabbedCode.plot.series tabbedOptions = .ok tabbedSeries
      ∧ ∃ v ∈ tabbedSeries.vectors, v.code = .padded 4 "QOP\t" ∧ v.code.trimmed = "QOP\t"
        ∧ Text.TrimmedEnd "QOP" v.code.trimmed ∧ ∃ m, Measure.ofBareCode? "QOP" = some m
          ∧ v.unit = tabbedCode.plot.header.unitSystem.unit m := by
  have hdecode := repeatedCode.decode_bytes
  obtain ⟨-, -, -, -, -, -, -, ⟨text, later, hsays⟩, -⟩ :=
    variables_of_series hdecode series_unmeasured
  obtain ⟨-, -, -, -, -, -, -, -, hfixed⟩ := variables_of_series hdecode series_repeatedCode
  have htexts : (repeatedSeries (.noUnit "FZZZ" ⟨"ZZZ"⟩)).warnings.map (fun warning =>
      (⟨.warning, Text.visible warning⟩ : CommandLine.Entry))
      = [⟨.warning, "Skipping ZZZ (FZZZ): unknown variable: \"ZZZ\""⟩,
        ⟨.warning, "Could not convert nexus variable BHP to a summary keyword"⟩] := by
    decide +kernel
  rw [htexts] at hsays
  -- The tab is taken off the code before its measure is looked up.
  have htabbed := tabbedCode.decode_bytes
  obtain ⟨-, -, hvectors, -⟩ := variables_of_series htabbed series_tabbedCode
  obtain ⟨v, hv⟩ : ∃ v, v ∈ tabbedSeries.vectors := ⟨_, List.mem_singleton_self _⟩
  have hcode : v.code = .padded 4 "QOP\t" ∧ v.code.trimmed = "QOP\t" := by
    rw [List.mem_singleton.mp hv]
    decide +kernel
  obtain ⟨-, text', m, htext, hmeasure, hunit⟩ := hvectors v hv
  obtain rfl : text' = "QOP" := by
    rw [Text.trimmedEnd_iff.mp htext, hcode.2]
    decide +kernel
  exact ⟨hdecode, series_unmeasured, ⟨text, later, hsays⟩, series_repeatedCode, rfl, hfixed rfl,
    htabbed, series_tabbedCode, v, hv, hcode.1, hcode.2, htext, m, hmeasure, hunit⟩

end ReservoirPlot
