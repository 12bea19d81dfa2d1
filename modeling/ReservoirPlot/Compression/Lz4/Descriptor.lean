/-
ReservoirPlot/Compression/Lz4/Descriptor.lean

The start of an LZ4 frame: the number that marks it, and a descriptor that says
how the frame is made.
-/
import ReservoirPlot.Compression.XxHash

namespace ReservoirPlot.Lz4

/-- What the descriptor of a frame says. -/
structure Descriptor where
  /-- Whether a block's repetitions stay within the block. -/
  independent : Bool
  /-- Whether a check value follows every block. -/
  blockCheck : Bool
  /-- The size of the whole output; zero if it is not told. -/
  size : Nat
  /-- Whether a check value of the whole output follows the last block. -/
  contentCheck : Bool
  maxBlockSize : Nat
deriving DecidableEq, Repr

namespace Descriptor

/-- The number that marks a frame. -/
def magic : Nat := 0x184d2204

/-- The size of a start with nothing optional: the mark, flags, sizes, and a check value. -/
def leastSize : Nat := 7

/-- Whether a flag is set. -/
def flag (start : List UInt8) (i : Nat) : Bool := (start.getD 4 0).toNat.testBit i

/-- The size of a start, of which the least size is known. -/
def startSize (start : List UInt8) : Nat :=
  leastSize + (if flag start 3 then 8 else 0) + (if flag start 0 then 4 else 0)

/-- The descriptor in a complete start.  The last byte is a check value of what stands between
it and the mark. -/
def ofStart? (start : List UInt8) : Option Descriptor :=
  let flags := (start.getD 4 0).toNat
  let sizes := (start.getD 5 0).toNat
  let sizeClass := sizes / 16
  let described := (start.drop 4).take (start.length - 5)
  let check := (start.getLastD 0).toNat
  if littleEndian (start.take 4) ≠ magic || flags / 64 ≠ 1 || flag start 1 then none
  else if sizes % 16 ≠ 0 || sizeClass < 4 || 7 < sizeClass then none
  else if check ≠ (XxHash32.ofBytes described).toNat / 256 % 256 then none
  else some {
    independent := flag start 5
    blockCheck := flag start 4
    size := if flag start 3 then littleEndian ((start.drop 6).take 8) else 0
    contentCheck := flag start 2
    maxBlockSize := Nat.pow 4 (sizeClass + 4) }

/-- The size of the check value of a block, if there is one. -/
def checkSize (d : Descriptor) : Nat := if d.blockCheck then 4 else 0

end Descriptor

/-- Whether some bytes are a check value of others. -/
def isCheckOf (check content : List UInt8) : Bool :=
  littleEndian check = (XxHash32.ofBytes content).toNat

end ReservoirPlot.Lz4
