/-
ReservoirPlot/Series/Conversion.lean

From a plot to a series.  The samples of one instance of one class are put in
the order of their timesteps, those of one timestep staying in file order.  They
give the time axis, one point per timestep, provided that all samples of a
timestep agree on its time; then each variable with a keyword and a unit becomes
a vector.
-/
import ReservoirPlot.Decimal.Style
import ReservoirPlot.Series.Basic
import ReservoirPlot.Series.Keywords

namespace ReservoirPlot

/-- A timestep for which two samples give different times. -/
structure TimeConflict where
  timestep : Int32
  first : Binary32
  second : Binary32
deriving DecidableEq, Repr

/-- The text of the error. -/
def TimeConflict.message (c : TimeConflict) : String :=
  s!"inconsistent time axis: timestep {c.timestep.toInt} has times "
    ++ Decimal.plainText c.first ++ " and " ++ Decimal.plainText c.second

/-! ### Selection -/

/-- The samples of an instance, by ascending timestep. -/
def Plot.selected (p : Plot) (className instanceName : String) : List Sample :=
  (p.samplesWhere (some className) (some instanceName) none).mergeSort
    fun a b => a.timestep ≤ b.timestep

/-- The selected samples are those of the instance, in another order. -/
theorem Plot.selected_perm (p : Plot) (className instanceName : String) :
    (p.selected className instanceName).Perm
      (p.samplesWhere (some className) (some instanceName) none) :=
  List.mergeSort_perm _ _

/-! ### Time axis -/

/-- The axis points after `last`, for samples in the order of their timesteps. -/
def axisAfter (last : TimePoint) : List Sample → Except TimeConflict (List TimePoint)
  | [] => .ok []
  | s :: rest =>
    if s.timestep = last.timestep then
      if last.time.agrees s.time then axisAfter last rest
      else .error ⟨s.timestep, last.time, s.time⟩
    else do
      let point : TimePoint := ⟨s.timestep, s.time⟩
      let points ← axisAfter point rest
      return point :: points

/-- The time axis of samples in the order of their timesteps: each timestep with the
time of its first sample, with which all others must agree. -/
def timeAxis : List Sample → Except TimeConflict (List TimePoint)
  | [] => .ok []
  | s :: rest => do
    let point : TimePoint := ⟨s.timestep, s.time⟩
    let points ← axisAfter point rest
    return point :: points

/-- The index of a timestep: the number of axis points before it. -/
def axisIndex (axis : List TimePoint) (timestep : Int32) : Nat :=
  (axis.takeWhile (·.timestep < timestep)).length

/-! ### Variables -/

/-- Some codes, then each further code of the samples at its first occurrence. -/
def appendSeen (codes : List VariableCode) (samples : List Sample) : List VariableCode :=
  samples.foldl (fun codes s => if s.code ∈ codes then codes else codes ++ [s.code]) codes

/-- The codes that the selected samples have: catalog order first, then the rest. -/
def presentCodes (catalogCodes : List VariableCode) (selected : List Sample) :
    List VariableCode :=
  (appendSeen catalogCodes selected).filter fun code => selected.any (·.code = code)

/-- The points of one variable. -/
def pointsOf (axis : List TimePoint) (selected : List Sample) (code : VariableCode) :
    List Point :=
  (selected.filter (·.code = code)).map fun s => ⟨axisIndex axis s.timestep, s.value⟩

/-- A vector for the variable, or the reason why it has none. -/
def vectorOf (u : UnitSystem) (table : KeywordTable) (axis : List TimePoint)
    (selected : List Sample) (code : VariableCode) : Except Skipped SummaryVector :=
  match table.keyword? code with
  | none => .error ⟨code, .noKeyword⟩
  | some keyword =>
    match u.unitOfCode code.trimmed with
    | .error cause => .error ⟨code, .noUnit keyword cause⟩
    | .ok unit => .ok ⟨keyword, code, unit, pointsOf axis selected code⟩

/-- The values among some results, in order. -/
def oks {ε α : Type} (results : List (Except ε α)) : List α :=
  results.filterMap fun
    | .ok a => some a
    | .error _ => none

/-- The errors among some results, in order. -/
def errors {ε α : Type} (results : List (Except ε α)) : List ε :=
  results.filterMap fun
    | .ok _ => none
    | .error e => some e

/-! ### The conversion -/

/-- The series of an instance under the keywords of a table. -/
def Plot.seriesWith (p : Plot) (className instanceName : String) (table : KeywordTable) :
    Except TimeConflict Series := do
  let selected := p.selected className instanceName
  let axis ← timeAxis selected
  let results := (presentCodes (p.codes className) selected).map
    (vectorOf p.header.unitSystem table axis selected)
  return ⟨oks results, axis, errors results⟩

/-- The series that the options ask for. -/
def Plot.series (p : Plot) (o : SeriesOptions) : Except TimeConflict Series :=
  p.seriesWith o.className o.instanceName o.table

end ReservoirPlot
