/-
ReservoirPlot/Binary/Binary64.lean

The 64-bit numbers in which times leave the library: days as a signal carries
them, and seconds as a summary does.  Every 32-bit number is also a 64-bit one.
-/
import ReservoirPlot.Binary.Binary32

namespace ReservoirPlot

open Binary

/-- A double-precision number, by its bits. -/
structure Binary64 where
  bits : UInt64
deriving DecidableEq, Repr

namespace Binary64

/-- What the bits denote. -/
def datum (x : Binary64) : Datum :=
  double.decode x.bits.toNat

/-- The number nearest to a datum. -/
def ofDatum (d : Datum) : Binary64 :=
  ⟨UInt64.ofNat (double.encode d)⟩

/-- The same number in the wider format. -/
def ofBinary32 (x : Binary32) : Binary64 :=
  ofDatum x.datum

/-- The number nearest to a natural number. -/
def ofNat (n : Nat) : Binary64 :=
  ofDatum (.finite false n 0)

/-- Zero. -/
def zero : Binary64 := ⟨0⟩

/-- Whether the bits denote no number. -/
def isNaN (x : Binary64) : Bool :=
  x.datum = .nan

/-- Whether the bits denote one of the two infinities. -/
def isInfinite (x : Binary64) : Bool :=
  x.bits &&& 0x7FFFFFFFFFFFFFFF = 0x7FF0000000000000

/-- The number nearest to the product. -/
def mul (x y : Binary64) : Binary64 :=
  ofDatum (x.datum.mul y.datum)

instance : Mul Binary64 := ⟨mul⟩

end Binary64

end ReservoirPlot
