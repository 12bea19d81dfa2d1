/-
ReservoirPlot/Plot/Basic.lean

A decoded plot: header, catalog and samples.  A sample is one value of one
variable of one instance at one timestep; the samples keep the order of the
file.  Queries name classes, instances and variables by their text, and a text
matches at most one token (`Token.eq_of_fits`).
-/
import ReservoirPlot.Binary.Binary32
import ReservoirPlot.Plot.Catalog
import ReservoirPlot.Plot.Header

namespace ReservoirPlot

/-- One value of one variable of one instance at one timestep. -/
structure Sample where
  timestep : Int32
  /-- The elapsed time in days. -/
  time : Binary32
  maxPerforations : Int32
  className : ClassName
  instanceName : InstanceName
  code : VariableCode
  value : Binary32
deriving DecidableEq, Repr

/-- Everything that a plot file holds. -/
structure Plot where
  header : Header
  catalog : Catalog
  samples : List Sample
deriving DecidableEq

/-- Whether the sample is one of the class, the instance and the variable named; a name
not given admits all. -/
def Sample.fits (s : Sample) (className? instanceName? code? : Option String) : Bool :=
  className?.all (s.className.fits ·) && instanceName?.all (s.instanceName.fits ·)
    && code?.all (s.code.fits ·)

namespace Plot

/-- The classes in catalog order. -/
def classes (p : Plot) : List ClassName :=
  p.catalog.classes

/-- The codes of the class whose token is made from the name. -/
def codes (p : Plot) (className : String) : List VariableCode :=
  (p.catalog.codes? (Token.padded 8 className)).getD []

/-- The instances of a class, in the order in which they first occur. -/
def instances (p : Plot) (className : String) : List InstanceName :=
  ((p.samples.filter (·.className.fits className)).map (·.instanceName)).eraseDups

/-- The timesteps that occur, ascending and each once. -/
def timesteps (p : Plot) : List Int32 :=
  (p.samples.map (·.timestep)).eraseDups.mergeSort (· ≤ ·)

/-- The samples of the class, the instance and the variable named, in file order. -/
def samplesWhere (p : Plot) (className? instanceName? code? : Option String) : List Sample :=
  p.samples.filter (·.fits className? instanceName? code?)

theorem mem_samplesWhere {p : Plot} {className? instanceName? code? : Option String}
    {s : Sample} :
    s ∈ p.samplesWhere className? instanceName? code?
      ↔ s ∈ p.samples ∧ s.fits className? instanceName? code? := by
  simp [samplesWhere]

end Plot

end ReservoirPlot
