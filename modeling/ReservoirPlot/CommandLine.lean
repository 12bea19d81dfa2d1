/-
ReservoirPlot/CommandLine.lean

The command line: it reads one plot file, says what is in it, and writes the
summary of the field as a whole.  Everything is said in a log, in the order in
which it happens; the log goes on to the point of failure.

`report` is all of it between opening the one file and creating the other, so
the program itself does nothing but these two.
-/
import ReservoirPlot.Files.Directory
import ReservoirPlot.Plot.Loading
import ReservoirPlot.Text.Escapes

namespace ReservoirPlot.CommandLine

/-! ### Arguments -/

/-- What is asked of the program. -/
structure Arguments where
  /-- The path of the plot file. -/
  input : String
  /-- The name of the case, which is also that of the summary file. -/
  caseName : String
deriving DecidableEq, Repr

/-- The arguments in a list: the input and the case, each with a default. -/
def Arguments.ofList (args : List String) : Arguments :=
  ⟨(args[0]?).getD "data/SPE1.plt", (args[1]?).getD "ECL_CASE"⟩

/-- The path of the summary file. -/
def Arguments.output (a : Arguments) : String := s!"{a.caseName}.json"

/-! ### The log -/

/-- How much weight an entry has. -/
inductive Level
  | debug
  | info
  | warning
deriving DecidableEq, Repr

/-- An entry of the log. -/
structure Entry where
  level : Level
  text : String
deriving DecidableEq, Repr

/-- A part of the program: it adds to the log and may fail. -/
abbrev Step := EStateM Failure (List Entry)

/-- Adds an entry. -/
def say (level : Level) (text : String) : Step Unit :=
  modify fun log => log ++ [⟨level, Text.visible text⟩]

/-- A result that may be a failure. -/
def settle {α : Type} : Except Failure α → Step α
  | .ok a => pure a
  | .error failure => throw failure

/-! ### What is said -/

/-- The grid of a header. -/
def gridText (h : Header) : String :=
  s!"{h.nx.toInt}x{h.ny.toInt}x{h.nz.toInt}"

/-- What is said when a part of the file has been recognised. -/
def progressText : Progress → String
  | .header h =>
    s!"Header: unit system {h.unitSystem.name}, {h.classCount.toInt} classes, grid {gridText h}"
  | .codes name count => s!"Class {name.trimmed}: {count} variables"
  | .stop offset => s!"Reached STOP at offset {offset}"

/-- Decodes a plot. -/
def decode (path : String) (s : Stream) : Step Plot := do
  for p in s.plotProgress do
    say .debug (progressText p)
  let plot ← settle ((readPlot.outcome s).mapError .undecodable)
  say .info s!"Loaded {path}: {plot.catalog.size} classes, {plot.samples.length} samples"
  return plot

/-- Says what a plot holds. -/
def describe (plot : Plot) : Step Unit := do
  let h := plot.header
  let date := s!"{h.day.toInt}/{h.month.toInt}/{h.year.toInt}"
  say .info s!"Unit system: {h.unitSystem.name}, start {date}, grid {gridText h}"
  for name in plot.classes do
    let codes := (plot.codes name.trimmed).map (·.trimmed)
    say .info ("  [" ++ name.trimmed ++ "] " ++ String.intercalate " " codes)
  say .info s!"Timesteps: {plot.timesteps.length}"

/-- Converts the plot, and says what became of its variables. -/
def convert (plot : Plot) (options : SeriesOptions) : Step Series := do
  let series ← settle ((plot.series options).mapError .conflicting)
  for warning in series.warnings do
    say .warning warning
  let counts := s!"{series.vectors.length} vectors over {series.timeAxis.length} timesteps"
  let source := s!"{options.className}/{options.instanceName}"
  say .debug s!"Converted {source}: {counts}, {series.skipped.length} skipped"
  for v in series.vectors do
    say .info (v.keyword ++ " [" ++ v.unit ++ s!"]: {v.points.length} points")
  for code in series.skippedCodes do
    say .warning s!"Not converted: {code.trimmed}"
  return series

/-- Everything between opening the input and creating the output: the text that is to be
written. -/
def report (a : Arguments) (opened : Except AccessError Source) : Step String := do
  let s ← settle (Stream.ofOpened a.input opened)
  let plot ← decode a.input s
  describe plot
  let series ← convert plot .default
  let case ← settle ((SummaryCase.of a.caseName plot.header series).mapError .undated)
  return case.text

/-- Says that the output was written. -/
def finish (a : Arguments) : Step Unit :=
  say .info s!"Wrote {a.output}"

/-! ### In a directory -/

/-- What a run leaves behind. -/
structure Outcome where
  log : List Entry
  failure? : Option Failure
  files : Directory

/-- Runs the program in a directory. -/
def runIn (d : Directory) (a : Arguments) : Outcome :=
  match report a (d.open? a.input) [] with
  | .error failure log => ⟨log, some failure, d⟩
  | .ok text log =>
    match d.write? a.output (Utf8.encode text) with
    | none => ⟨log, some .unwritable, d⟩
    | some files =>
      match finish a log with
      | .ok () log => ⟨log, none, files⟩
      | .error failure log => ⟨log, some failure, files⟩

end ReservoirPlot.CommandLine
