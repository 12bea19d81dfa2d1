/-
ReservoirPlot/Proofs/Summary/Text.lean

What a summary file says, and how.  `Describes` says by fields what the case of a
reader has: its name, the header's day and grid, a column per vector and a step per
point of the axis, whose seconds are 86400 times its time.  `Tells` says by characters
what the file of a case has: an object of five members, laid out as `Json.Lays` says,
with the day in digits.

Main results: `describes_of`, `tells_text`.
-/
import ReservoirPlot.Proofs.Json.Layout
import ReservoirPlot.Proofs.Summary.ElapsedTime

namespace ReservoirPlot

/-! ### Days -/

/-- A text of digits with a value, filled up with zeros to a width. -/
structure IsPadded (width n : Nat) (text : List Char) : Prop where
  digit : ∀ c ∈ text, c.isDigit
  value : Nat.ofDigitChars 10 text 0 = n
  length : text.length = max width (Nat.toDigits 10 n).length

namespace Date

/-- The text of a day: year, month and day in four, two and two digits.  Years before the year 0 and
behind the year 9999 have a sign. -/
inductive Reads (d : Date) : List Char → Prop
  | mk {year month day : List Char} (hyear : IsPadded 4 d.year.natAbs year)
    (hmonth : IsPadded 2 d.month.natAbs month) (hday : IsPadded 2 d.day.natAbs day) :
    Reads d ((if d.year < 0 then ['-'] else if 9999 < d.year then ['+'] else [])
      ++ year ++ '-' :: month ++ '-' :: day)

theorem isPadded_padded (width n : Nat) : IsPadded width n (padded width n).toList := by
  rw [padded, String.toList_ofList]
  refine ⟨?_, ?_, ?_⟩
  · intro c hc
    rcases List.mem_append.mp hc with hzero | hdigit
    · rw [(List.mem_replicate.mp hzero).2]
      rfl
    · exact Decimal.isDigit_of_mem hdigit
  · rw [Nat.ofDigitChars_append, Nat.ofDigitChars_replicate_zero, Nat.mul_zero,
      Nat.ofDigitChars_ten_toDigits]
  · rw [List.length_append, List.length_replicate]
    omega

theorem reads_text (d : Date) : d.Reads d.text.toList := by
  have hmonth : d.month.toNat = d.month.natAbs := by
    have hmem := d.month_mem
    omega
  have hday : d.day.toNat = d.day.natAbs := by
    have hmem := d.day_mem
    omega
  have hsign : (if d.year < 0 then "-" else if 9999 < d.year then "+" else "").toList
      = if d.year < 0 then ['-'] else if 9999 < d.year then ['+'] else [] := by
    split
    · rfl
    · split <;> rfl
  have hhyphen : ("-").toList = ['-'] := rfl
  have hreads := Reads.mk (d := d) (isPadded_padded ..) (isPadded_padded ..) (isPadded_padded ..)
  rw [text, yearText, hmonth, hday]
  simpa only [String.toList_append, hsign, hhyphen, List.append_assoc, List.cons_append,
    List.nil_append] using hreads

end Date

namespace SummaryCase

variable {name : String} {header : Header} {series : Series} {c : SummaryCase}

/-! ### Cases -/

/-- A case says under a name what a header and a series say. -/
structure Describes (c : SummaryCase) (name : String) (header : Header) (series : Series) :
    Prop where
  name : c.name = name
  year : c.startDate.year = header.year.toInt
  month : c.startDate.month = header.month.toInt
  day : c.startDate.day = header.day.toInt
  grid : c.nx = header.nx ∧ c.ny = header.ny ∧ c.nz = header.nz
  columns : c.columns = series.vectors.map fun v => ⟨v.keyword, v.unit⟩
  steps : c.steps = series.timeAxis.mapIdx fun i point =>
    ⟨i + 1, seconds point.time, series.vectors.map fun v =>
      ((v.points.filter (·.index = i)).getLast?).map (·.value)⟩
  elapsed : ∀ point ∈ series.timeAxis, point.time.IsFinite →
    ∃ t, point.time.value? = some t ∧ (seconds point.time).value? = some (86400 * t)

theorem describes_of (h : of name header series = .ok c) : c.Describes name header series := by
  have hsteps := steps_of h
  rw [of] at h
  obtain ⟨d, hd, h⟩ := bind_eq_ok_iff.mp h
  obtain rfl := Except.ok.inj h
  have hdate : d.year = header.year.toInt ∧ d.month = header.month.toInt
      ∧ d.day = header.day.toInt := by
    rw [Header.startDate, Date.of?] at hd
    split at hd
    · next d' hd' =>
      obtain rfl := Except.ok.inj hd
      split at hd'
      · obtain rfl := Option.some.inj hd'
        exact ⟨rfl, rfl, rfl⟩
      · cases hd'
    · cases hd
  exact ⟨rfl, hdate.1, hdate.2.1, hdate.2.2, ⟨rfl, rfl, rfl⟩, rfl, hsteps,
    fun _ _ => value?_seconds⟩

/-! ### Files -/

/-- A text has everything that a case says: the name, the day, the three sizes of the grid, keyword
and unit of the columns, and number, seconds and values of the steps, where nothing stands as `null`. -/
def Tells (c : SummaryCase) (text : List Char) : Prop :=
  ∃ date : String, c.startDate.Reads date.toList ∧ Json.Lays 0 (.object [
    ("case", .string c.name),
    ("start_date", .string date),
    ("grid", .array [.number (.integer c.nx.toInt), .number (.integer c.ny.toInt),
      .number (.integer c.nz.toInt)]),
    ("keywords", .array (c.columns.map fun column =>
      .object [("keyword", .string column.keyword), ("unit", .string column.unit)])),
    ("steps", .array (c.steps.map fun step =>
      .object [("step", .number (.integer step.number)),
        ("elapsed_seconds", .number (.double step.elapsedSeconds)),
        ("values", .array (step.values.map fun value? =>
          value?.elim .null fun value => .number (.single value)))]))]) text

/-- **The file of a case has everything that the case says.** -/
theorem tells_text (c : SummaryCase) : c.Tells c.text.toList := by
  have hvalue : (fun value? : Option Binary32 =>
      value?.elim Json.null fun value => .number (.single value))
        = Json.optional Json.single := by
    funext value?
    cases value? <;> rfl
  refine ⟨c.startDate.text, c.startDate.reads_text, ?_⟩
  rw [hvalue]
  exact Json.lays_prettyAt 0 c.json

end SummaryCase

end ReservoirPlot
