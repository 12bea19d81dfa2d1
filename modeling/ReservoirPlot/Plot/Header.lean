/-
ReservoirPlot/Plot/Header.lean

The header of a plot file: the unit system and eight integers, of which the
first counts the classes and the rest give the start date, the size of the grid
and the number of components.
-/
import ReservoirPlot.Units.UnitSystem

namespace ReservoirPlot

/-- What the header of a plot file says. -/
structure Header where
  unitSystem : UnitSystem
  classCount : Int32
  day : Int32
  month : Int32
  year : Int32
  nx : Int32
  ny : Int32
  nz : Int32
  componentCount : Int32
deriving DecidableEq, Repr

namespace Header

/-- How many integers a header has. -/
def fieldCount : Nat := 8

/-- The integers of the header in file order. -/
def fields (h : Header) : List Int32 :=
  [h.classCount, h.day, h.month, h.year, h.nx, h.ny, h.nz, h.componentCount]

/-- The header with the given integers in file order; absent ones are zero. -/
def ofFields (u : UnitSystem) (fields : List Int32) : Header where
  unitSystem := u
  classCount := fields.getD 0 0
  day := fields.getD 1 0
  month := fields.getD 2 0
  year := fields.getD 3 0
  nx := fields.getD 4 0
  ny := fields.getD 5 0
  nz := fields.getD 6 0
  componentCount := fields.getD 7 0

@[simp] theorem length_fields (h : Header) : h.fields.length = fieldCount := rfl

@[simp] theorem ofFields_fields (h : Header) : ofFields h.unitSystem h.fields = h := rfl

/-- Eight integers are the fields of the header that they make. -/
theorem fields_ofFields (u : UnitSystem) {xs : List Int32} (h : xs.length = fieldCount) :
    (ofFields u xs).fields = xs := by
  match xs, h with
  | [_, _, _, _, _, _, _, _], _ => rfl

end Header

end ReservoirPlot
