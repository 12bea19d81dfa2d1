/-
ReservoirPlot/Series/Json.lean

A series as JSON, and its options from and to JSON.  Codes are written without
their padding.  Options may be an object, in which every member has a default
and others are passed over, or an array that gives the class, the instance and
the keywords in this order and may stop early.
-/
import ReservoirPlot.Json.Printer
import ReservoirPlot.Series.Basic
import ReservoirPlot.Series.Keywords

namespace ReservoirPlot

/-- A point as JSON: its index and its value. -/
def Point.json (p : Point) : Json :=
  .array [.nat p.index, .single p.value]

/-- A vector as JSON. -/
def SummaryVector.json (v : SummaryVector) : Json :=
  .object [("keyword", .string v.keyword), ("variable", .string v.code.trimmed),
    ("unit", .string v.unit), ("points", .array (v.points.map (·.json)))]

/-- A point of the time axis as JSON. -/
def TimePoint.json (p : TimePoint) : Json :=
  .object [("timestep", .int32 p.timestep), ("time", .single p.time)]

/-- The series as JSON. -/
def Series.json (s : Series) : Json :=
  .object [("vectors", .array (s.vectors.map (·.json))),
    ("time_axis", .array (s.timeAxis.map (·.json))),
    ("skipped", .strings (s.skippedCodes.map (·.trimmed)))]

namespace SeriesOptions

/-- Keywords by variable code, from an object of strings. -/
def keywordsOfJson? : Json → Option (List (String × String))
  | .object members => do
    let entries ← members.mapM fun m => m.2.string?.map fun s => (m.1, s)
    return Json.sortMembers entries
  | _ => none

/-- The value of an optional part, or its default. -/
def part {α : Type} (f : Json → Option α) (default : α) : Option Json → Option α
  | none => some default
  | some j => f j

/-- The options whose parts are given or absent. -/
def ofParts? (className? instanceName? keywords? : Option Json) : Option SeriesOptions := do
  let className ← part Json.string? defaultClass className?
  let instanceName ← part Json.string? defaultInstance instanceName?
  let keywords ← part keywordsOfJson? [] keywords?
  return ⟨className, instanceName, keywords⟩

/-- The options that a JSON value stands for. -/
def ofJson? (j : Json) : Option SeriesOptions :=
  match j with
  | .object _ => ofParts? (j.member? "class") (j.member? "instance") (j.member? "keywords")
  | .array items =>
    if items.length ≤ 3 then ofParts? items[0]? items[1]? items[2]? else none
  | _ => none

/-- The options as JSON. -/
def json (o : SeriesOptions) : Json :=
  .object [("class", .string o.className), ("instance", .string o.instanceName),
    ("keywords", .object (o.keywords.map fun entry => (entry.1, .string entry.2)))]

end SeriesOptions

end ReservoirPlot
