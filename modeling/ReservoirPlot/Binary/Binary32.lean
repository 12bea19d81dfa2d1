/-
ReservoirPlot/Binary/Binary32.lean

The 32-bit words of a plot file.  Times, values and also the whole numbers of a
block header are stored as the 32 bits of a single-precision number, so the
type holds just these bits: two values are equal when their bits are.  The
comparison that arithmetic makes, in which a NaN differs from itself and the two
zeros agree, is `Binary32.agrees`.
-/
import ReservoirPlot.Binary.Format

namespace ReservoirPlot

open Binary

/-- A single-precision number, by its bits. -/
structure Binary32 where
  bits : UInt32
deriving DecidableEq, Repr

namespace Binary32

/-- What the bits denote. -/
def datum (x : Binary32) : Datum :=
  single.decode x.bits.toNat

/-- The number nearest to a datum. -/
def ofDatum (d : Datum) : Binary32 :=
  ⟨UInt32.ofNat (single.encode d)⟩

/-- The number nearest to a whole number. -/
def ofInt (n : Int) : Binary32 :=
  ofDatum (.finite (n < 0) n.natAbs 0)

/-- Zero. -/
def zero : Binary32 := ⟨0⟩

/-- Whether the bits denote no number. -/
def isNaN (x : Binary32) : Bool :=
  x.datum = .nan

/-- Whether the bits denote one of the two zeros. -/
def isZero (x : Binary32) : Bool :=
  x.bits &&& 0x7FFFFFFF = 0

/-- Equality as arithmetic has it: a NaN agrees with nothing, and the two zeros with
each other. -/
def agrees (x y : Binary32) : Bool :=
  !x.isNaN && !y.isNaN && (x.bits == y.bits || (x.isZero && y.isZero))

theorem agrees_comm (x y : Binary32) : x.agrees y = y.agrees x := by
  simp only [agrees, BEq.comm (a := x.bits), Bool.and_comm]

/-- A number agrees with itself unless it is a NaN. -/
theorem agrees_self (x : Binary32) : x.agrees x = !x.isNaN := by
  simp [agrees]

/-- The whole number on the near side of zero, kept within 32 bits; 0 for a NaN. -/
def toInt32 (x : Binary32) : Int32 :=
  match x.datum with
  | .nan => 0
  | .infinite negative => if negative then Int32.minValue else Int32.maxValue
  | .finite negative significand exponent =>
    Int32.ofIntClamp (Datum.truncate negative significand exponent)

end Binary32

end ReservoirPlot
