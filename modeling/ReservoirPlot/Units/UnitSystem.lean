/-
ReservoirPlot/Units/UnitSystem.lean

The unit systems of the simulator.  A plot file names its unit system by a
six-byte tag; the units of all its values follow from it.  The table has one
row per measure and one column per system.
-/
import ReservoirPlot.Token
import ReservoirPlot.Units.Measure

namespace ReservoirPlot

/-- The unit system of a plot. -/
inductive UnitSystem
  | english
  | metric
  | metricKgCm2
  | metricBars
  | lab
deriving DecidableEq, Repr

/-- The units of one measure in each system. -/
structure Measure.Row where
  english : String
  metric : String
  metricKgCm2 : String
  metricBars : String
  lab : String

/-- The row of a measure; a dimensionless one has the empty unit. -/
def Measure.row : Measure → Measure.Row
  | .compressibility => ⟨"PSI-1", "KPA-1", "(KG/CM2)-1", "BARS-1", "PSI-1"⟩
  | .density => ⟨"LB/FT3", "KG/M3", "KG/M3", "KG/M3", "GM/CC"⟩
  | .gasFormationVolumeFactor => ⟨"RB/MSCF", "RM3/SM3", "RM3/SM3", "RM3/SM3", "CC/CC"⟩
  | .oilFormationVolumeFactor => ⟨"RB/STB", "RM3/SM3", "RM3/SM3", "RM3/SM3", "CC/CC"⟩
  | .fraction => ⟨"", "", "", "", ""⟩
  | .gasLiquidRatio => ⟨"MSCF/STB", "SM3/SM3", "SM3/SM3", "SM3/SM3", "CC/CC"⟩
  | .length => ⟨"FT", "M", "M", "M", "CM"⟩
  | .moles => ⟨"LB-M", "KG-M", "KG-M", "KG-M", "GM-M"⟩
  | .permeability => ⟨"MD", "MD", "MD", "MD", "MD"⟩
  | .pressure => ⟨"PSI", "KPA", "KG/CM2", "BARS", "PSI"⟩
  | .absolutePressure => ⟨"PSIA", "KPAA", "KG/CM2A", "BARSA", "PSIA"⟩
  | .reservoirRate => ⟨"RB/DAY", "RM3/DAY", "RM3/DAY", "RM3/DAY", "CC/HR"⟩
  | .reservoirVolume => ⟨"kRB", "kRM3", "kRM3", "kRM3", "CC"⟩
  | .surfaceGasRate => ⟨"MSCF/DAY", "SM3/DAY", "SM3/DAY", "SM3/DAY", "CC/HR"⟩
  | .surfaceLiquidRate => ⟨"STB/DAY", "SM3/DAY", "SM3/DAY", "SM3/DAY", "CC/HR"⟩
  | .surfaceGasVolume => ⟨"MMSCF", "kSM3", "kSM3", "kSM3", "CC"⟩
  | .surfaceLiquidVolume => ⟨"kSTB", "kSM3", "kSM3", "kSM3", "CC"⟩
  | .temperature => ⟨"F", "C", "C", "C", "C"⟩
  | .time => ⟨"DAY", "DAY", "DAY", "DAY", "HR"⟩
  | .viscosity => ⟨"CP", "CP", "CP", "CP", "CP"⟩
  | .volume => ⟨"FT3", "M3", "M3", "M3", "CC"⟩
  | .waterCut => ⟨"STB/STB", "SM3/SM3", "SM3/SM3", "SM3/SM3", "CC/CC"⟩

/-- A variable code that has no known measure, without the blanks after it. -/
structure UnknownVariable where
  code : String
deriving DecidableEq, Repr

/-- The text of the error. -/
def UnknownVariable.message (e : UnknownVariable) : String :=
  "unknown variable: " ++ Text.quoted e.code

namespace UnitSystem

/-- All unit systems. -/
def all : List UnitSystem :=
  [.english, .metric, .metricKgCm2, .metricBars, .lab]

theorem mem_all (u : UnitSystem) : u ∈ all := by
  cases u <;> decide

/-- The name of the system in messages. -/
def name : UnitSystem → String
  | english => "english"
  | metric => "metric"
  | metricKgCm2 => "metric-kg/cm2"
  | metricBars => "metric-bars"
  | lab => "lab"

/-! ### Tags -/

/-- The six characters that stand for the system in a plot file. -/
def tagText : UnitSystem → String
  | english => "ENGLIS"
  | metric => "METRIC"
  | metricKgCm2 => "METKG "
  | metricBars => "METBAR"
  | lab => "LAB   "

/-- The tag of the system in a plot file. -/
def tag (u : UnitSystem) : UnitTag :=
  Token.padded 6 u.tagText

/-- The system with the given tag. -/
def ofTag? (t : UnitTag) : Option UnitSystem :=
  all.find? fun u => u.tag = t

/-- Every system is found by its own tag. -/
@[simp] theorem ofTag?_tag (u : UnitSystem) : ofTag? u.tag = some u := by
  cases u <;> decide +kernel

/-- A system is found by its own tag only. -/
theorem tag_of_ofTag? {t : UnitTag} {u : UnitSystem} (h : ofTag? t = some u) : u.tag = t := by
  simpa using List.find?_some h

/-! ### Units -/

/-- The unit of a measure. -/
def unit (u : UnitSystem) (m : Measure) : String :=
  match u with
  | english => m.row.english
  | metric => m.row.metric
  | metricKgCm2 => m.row.metricKgCm2
  | metricBars => m.row.metricBars
  | lab => m.row.lab

/-- Only a fraction has the empty unit. -/
theorem unit_eq_empty_iff (u : UnitSystem) (m : Measure) : u.unit m = "" ↔ m = .fraction := by
  cases u <;> cases m <;> decide

/-- The unit of the variable with the given code. -/
def unitOfCode (u : UnitSystem) (code : String) : Except UnknownVariable String :=
  match Measure.ofCode? code with
  | some m => .ok (u.unit m)
  | none => .error ⟨Text.trimEnd code⟩

end UnitSystem

end ReservoirPlot
