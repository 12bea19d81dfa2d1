/-
ReservoirPlot/Units/Measure.lean

What a variable measures.  The simulator names its variables by short codes;
`Measure.ofCode?` gives the physical measure behind a code, blanks after the
code not counting.
-/
import ReservoirPlot.Text.Blank

namespace ReservoirPlot

/-- A physical measure that has a unit in every unit system. -/
inductive Measure
  | compressibility
  | density
  | gasFormationVolumeFactor
  | oilFormationVolumeFactor
  | fraction
  | gasLiquidRatio
  | length
  | moles
  | permeability
  | pressure
  | absolutePressure
  | reservoirRate
  | reservoirVolume
  | surfaceGasRate
  | surfaceLiquidRate
  | surfaceGasVolume
  | surfaceLiquidVolume
  | temperature
  | time
  | viscosity
  | volume
  | waterCut
deriving DecidableEq, Repr

namespace Measure

/-- All measures, in the order in which they are listed. -/
def all : List Measure :=
  [.compressibility, .density, .gasFormationVolumeFactor, .oilFormationVolumeFactor,
   .fraction, .gasLiquidRatio, .length, .moles, .permeability, .pressure,
   .absolutePressure, .reservoirRate, .reservoirVolume, .surfaceGasRate,
   .surfaceLiquidRate, .surfaceGasVolume, .surfaceLiquidVolume, .temperature, .time,
   .viscosity, .volume, .waterCut]

theorem mem_all (m : Measure) : m ∈ all := by
  cases m <;> decide

/-- The measure of a code without blanks after it. -/
def ofBareCode? : String → Option Measure
  | "QOP" | "QWP" | "QWI" | "QLP" | "QPP" => some .surfaceLiquidRate
  | "QGP" | "QGI" => some .surfaceGasRate
  | "COP" | "CWP" | "CWI" | "CLP" | "CPP" => some .surfaceLiquidVolume
  | "CGP" | "CGI" => some .surfaceGasVolume
  | "GOR" | "GLR" => some .gasLiquidRatio
  | "WCUT" | "WOR" => some .waterCut
  | "BHP" | "THP" | "PRES" => some .pressure
  | "TEMP" => some .temperature
  | "QRP" | "QRI" => some .reservoirRate
  | "CRP" | "CRI" => some .reservoirVolume
  | "OGR" => some .fraction
  | _ => none

/-- The measure of a variable code, if it is a known one. -/
def ofCode? (code : String) : Option Measure :=
  ofBareCode? (Text.trimEnd code)

end Measure

end ReservoirPlot
