/-
ReservoirPlot/Plot/Loading.lean

Plots from files, and everything that can go wrong between a file and a summary.
-/
import ReservoirPlot.Files.Path
import ReservoirPlot.Plot.Decoding
import ReservoirPlot.Series.Conversion
import ReservoirPlot.Summary.Case

namespace ReservoirPlot

/-- Why a file does not become a plot, a series or a summary file. -/
inductive Failure
  /-- The file could not be opened. -/
  | unopened (path : String) (cause : AccessError)
  /-- The file does not hold a plot. -/
  | undecodable (cause : DecodeError)
  /-- The plot has no time axis. -/
  | conflicting (cause : TimeConflict)
  /-- The plot has no start date. -/
  | undated (cause : InvalidStartDate)
  /-- The summary file could not be created. -/
  | unwritable
deriving DecidableEq, Repr

/-- The text of the failure. -/
def Failure.message : Failure → String
  | unopened path cause => s!"could not open {path}: {cause.message}"
  | undecodable cause => cause.message
  | conflicting cause => cause.message
  | undated cause => cause.message
  | unwritable => "the summary file could not be created"

/-- The stream that a plot is read from, once its file has been opened: the path tells how the
file is compressed. -/
def Stream.ofOpened (path : String) (opened : Except AccessError Source) :
    Except Failure Stream :=
  match opened with
  | .ok file => .ok (.ofFile (Compression.ofPath path) true file)
  | .error cause => .error (.unopened path cause)

/-- The plot in a file that has been opened. -/
def Plot.ofOpened (path : String) (opened : Except AccessError Source) : Except Failure Plot := do
  let s ← Stream.ofOpened path opened
  (readPlot.outcome s).mapError .undecodable

/-- The plot in a file, and the series that it gives. -/
def Plot.loadSeries (path : String) (opened : Except AccessError Source)
    (options : SeriesOptions) : Except Failure (Plot × Series) := do
  let plot ← Plot.ofOpened path opened
  let series ← (plot.series options).mapError .conflicting
  return (plot, series)

end ReservoirPlot
