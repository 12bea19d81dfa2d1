/-
ReservoirPlot/Series/Basic.lean

Summary series.  A series has one time axis and a vector per keyword; a point of
a vector is an index into the axis and a value.  Variables that have no keyword
or no unit are left out, and the series says which and why.
-/
import ReservoirPlot.Plot.Basic

namespace ReservoirPlot

/-- A timestep and its elapsed time in days. -/
structure TimePoint where
  timestep : Int32
  time : Binary32
deriving DecidableEq, Repr

/-- A value and its index into the time axis. -/
structure Point where
  index : Nat
  value : Binary32
deriving DecidableEq, Repr

/-- The values of one variable under its summary keyword. -/
structure SummaryVector where
  keyword : String
  code : VariableCode
  unit : String
  points : List Point
deriving DecidableEq, Repr

/-- Why a variable is left out of a series. -/
inductive SkipCause
  | noKeyword
  | noUnit (keyword : String) (cause : UnknownVariable)
deriving DecidableEq, Repr

/-- A variable that is left out of a series. -/
structure Skipped where
  code : VariableCode
  cause : SkipCause
deriving DecidableEq, Repr

/-- The warning about a variable that is left out. -/
def Skipped.warning (s : Skipped) : String :=
  match s.cause with
  | .noKeyword => s!"Could not convert nexus variable {s.code.trimmed} to a summary keyword"
  | .noUnit keyword cause => s!"Skipping {s.code.trimmed} ({keyword}): {cause.message}"

/-- The series of one instance. -/
structure Series where
  vectors : List SummaryVector
  timeAxis : List TimePoint
  skipped : List Skipped
deriving DecidableEq, Repr

namespace Series

/-- The keywords of the vectors, in order. -/
def keywords (s : Series) : List String :=
  s.vectors.map (·.keyword)

/-- The first vector of a keyword. -/
def vector? (s : Series) (keyword : String) : Option SummaryVector :=
  s.vectors.find? fun v => v.keyword = keyword

/-- The codes of the variables that are left out. -/
def skippedCodes (s : Series) : List VariableCode :=
  s.skipped.map (·.code)

/-- The warnings about the variables that are left out. -/
def warnings (s : Series) : List String :=
  s.skipped.map (·.warning)

theorem vector?_isSome_iff (s : Series) (keyword : String) :
    (s.vector? keyword).isSome ↔ keyword ∈ s.keywords := by
  simp [vector?, keywords]

end Series

end ReservoirPlot
