/-
ReservoirPlot/Summary/Case.lean

A summary case: everything that a summary file says about one plot.  It has one
column per vector of a series and one step per point of the time axis, numbered
from 1, and gives the elapsed time in seconds.  A cell holds the value of the
last point of its vector at its step, or nothing; points beyond the axis are left
out.
-/
import ReservoirPlot.Json.Printer
import ReservoirPlot.Series.Basic
import ReservoirPlot.Summary.Date

namespace ReservoirPlot

/-- The keyword and the unit of a column. -/
structure SummaryColumn where
  keyword : String
  unit : String
deriving DecidableEq, Repr

/-- A row of a summary. -/
structure SummaryStep where
  /-- The number of the step, from 1. -/
  number : Nat
  elapsedSeconds : Binary64
  /-- A value per column, if the series has one. -/
  values : List (Option Binary32)
deriving DecidableEq, Repr

/-- Everything that a summary file says. -/
structure SummaryCase where
  name : String
  startDate : Date
  nx : Int32
  ny : Int32
  nz : Int32
  columns : List SummaryColumn
  steps : List SummaryStep
deriving DecidableEq

/-- A start date that is no day of the calendar. -/
structure InvalidStartDate where
  day : Int32
  month : Int32
  year : Int32
deriving DecidableEq, Repr

/-- The text of the error. -/
def InvalidStartDate.message (e : InvalidStartDate) : String :=
  s!"invalid start date {e.day.toInt}/{e.month.toInt}/{e.year.toInt}"

/-- The start date that a header gives. -/
def Header.startDate (h : Header) : Except InvalidStartDate Date :=
  match Date.of? h.year.toInt h.month.toInt h.day.toInt with
  | some d => .ok d
  | none => .error ⟨h.day, h.month, h.year⟩

namespace SummaryCase

/-- The seconds of a day. -/
def secondsPerDay : Binary64 := .ofNat 86400

/-- Days as seconds. -/
def seconds (days : Binary32) : Binary64 :=
  Binary64.ofBinary32 days * secondsPerDay

/-- The cells of a vector, from the first step to the last: each point in turn is written
into its step, and a point beyond the last step is dropped. -/
def cells (count : Nat) (points : List Point) : List (Option Binary32) :=
  points.foldl (fun column p => column.set p.index (some p.value)) (List.replicate count none)

@[simp] theorem length_cells (count : Nat) (points : List Point) :
    (cells count points).length = count := by
  unfold cells
  have key : ∀ column : List (Option Binary32),
      (points.foldl (fun column p => column.set p.index (some p.value)) column).length
        = column.length := by
    induction points with
    | nil => simp
    | cons p rest ih => intro column; simp [ih]
  simp [key]

/-- The step at a position of the time axis. -/
def stepAt (columns : List (List (Option Binary32))) (position : Nat) (p : TimePoint) :
    SummaryStep :=
  ⟨position + 1, seconds p.time, columns.map fun column => (column[position]?).join⟩

/-- The summary of a plot's series under a case name. -/
def of (name : String) (header : Header) (series : Series) :
    Except InvalidStartDate SummaryCase := do
  let startDate ← header.startDate
  let columns := series.vectors.map fun v => cells series.timeAxis.length v.points
  return {
    name, startDate
    nx := header.nx
    ny := header.ny
    nz := header.nz
    columns := series.vectors.map fun v => ⟨v.keyword, v.unit⟩
    steps := series.timeAxis.mapIdx (stepAt columns) }

/-! ### As JSON -/

/-- A column as JSON. -/
def columnJson (c : SummaryColumn) : Json :=
  .object [("keyword", .string c.keyword), ("unit", .string c.unit)]

/-- A step as JSON. -/
def stepJson (s : SummaryStep) : Json :=
  .object [("step", .nat s.number), ("elapsed_seconds", .double s.elapsedSeconds),
    ("values", .array (s.values.map (Json.optional Json.single)))]

/-- The case as JSON. -/
def json (c : SummaryCase) : Json :=
  .object [("case", .string c.name), ("start_date", .string c.startDate.text),
    ("grid", .array [.int32 c.nx, .int32 c.ny, .int32 c.nz]),
    ("keywords", .array (c.columns.map columnJson)),
    ("steps", .array (c.steps.map stepJson))]

/-- The summary file of the case. -/
def text (c : SummaryCase) : String :=
  c.json.pretty

/-! ### Writing -/

/-- What a sink holds after bytes have been written to it, and whether it took them all;
a sink may have room for only so many bytes. -/
def writeTo (room? : Option Nat) (bytes : List UInt8) : List UInt8 × Bool :=
  match room? with
  | none => (bytes, true)
  | some room => (bytes.take room, bytes.length ≤ room)

end SummaryCase

end ReservoirPlot
