/-
ReservoirPlot/Compression/Bytes.lean

What compressed formats have in common: the order of bits and bytes in numbers,
the repetition of output that has already been made, and output that is gathered
in chunks.
-/

namespace ReservoirPlot

/-- The eight bits of a byte, the lowest first. -/
def bitsOfByte (b : UInt8) : List Bool :=
  (List.range 8).map b.toNat.testBit

/-- The number whose bytes are given, the lowest first. -/
def littleEndian (bytes : List UInt8) : Nat :=
  bytes.foldr (fun b n => b.toNat + 256 * n) 0

/-- The output with `length` bytes repeated from `distance` bytes before its end, one after the
other, so that what has just been repeated may be repeated again.  Before its start, and at
its end, the output counts as filled with zeros. -/
def repeated (distance : Nat) : Nat → Array UInt8 → Array UInt8
  | 0, output => output
  | length + 1, output =>
    let b := if distance ≤ output.size then output.getD (output.size - distance) 0 else 0
    repeated distance length (output.push b)

/-- Chunks of which the latest comes first, put together. -/
def joined (chunks : List (List UInt8)) : List UInt8 := chunks.reverse.flatten

/-- The latest chunk comes last. -/
@[simp] theorem joined_cons (chunk : List UInt8) (chunks : List (List UInt8)) :
    joined (chunk :: chunks) = joined chunks ++ chunk := by
  simp [joined]

end ReservoirPlot
