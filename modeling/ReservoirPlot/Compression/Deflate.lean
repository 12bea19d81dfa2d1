/-
ReservoirPlot/Compression/Deflate.lean

The deflate format.  A stream is a sequence of blocks, each stored as it is or
written in two prefix codes: one for bytes and for the lengths of repetitions,
one for the distances over which they reach back.  The codes are fixed or stand
at the head of the block, where the lengths of their codewords are themselves
written in a prefix code.
-/
import ReservoirPlot.Compression.PrefixCode

namespace ReservoirPlot.Deflate

open Expander

/-! ### Repetitions -/

/-- The least length and the number of further bits of each length symbol. -/
def lengthTable : Array (Nat × Nat) :=
  #[(3, 0), (4, 0), (5, 0), (6, 0), (7, 0), (8, 0), (9, 0), (10, 0), (11, 1), (13, 1),
    (15, 1), (17, 1), (19, 2), (23, 2), (27, 2), (31, 2), (35, 3), (43, 3), (51, 3), (59, 3),
    (67, 4), (83, 4), (99, 4), (115, 4), (131, 5), (163, 5), (195, 5), (227, 5), (258, 0)]

/-- The least distance and the number of further bits of each distance symbol. -/
def distanceTable : Array (Nat × Nat) :=
  #[(1, 0), (2, 0), (3, 0), (4, 0), (5, 1), (7, 1), (9, 2), (13, 2), (17, 3), (25, 3),
    (33, 4), (49, 4), (65, 5), (97, 5), (129, 6), (193, 6), (257, 7), (385, 7), (513, 8),
    (769, 8), (1025, 9), (1537, 9), (2049, 10), (3073, 10), (4097, 11), (6145, 11),
    (8193, 12), (12289, 12), (16385, 13), (24577, 13)]

/-- Takes the further bits of a symbol and gives the amount that it stands for. -/
def amount (table : Array (Nat × Nat)) (symbol : Nat) : Expander Nat := do
  match table[symbol]? with
  | some (least, count) => return least + (← bits count)
  | none => corrupt

/-! ### Blocks -/

/-- The symbol that ends a block; below it are the bytes, above it the lengths. -/
def endOfBlock : Nat := 256

/-- Expands one symbol of a block, and says whether the block goes on. -/
def symbolStep (symbols distances : PrefixCode) : Expander Bool := do
  let symbol ← symbols.decode
  if symbol < endOfBlock then
    emit (UInt8.ofNat symbol)
    return true
  else if symbol = endOfBlock then
    return false
  else
    let length ← amount lengthTable (symbol - endOfBlock - 1)
    let distance ← amount distanceTable (← distances.decode)
    copyBack distance length
    return true

/-- Expands the symbols of a block. -/
def coded (symbols distances : PrefixCode) : Expander Unit :=
  repeatWhile (symbolStep symbols distances)

/-- The fixed code for bytes and lengths. -/
def fixedSymbols : PrefixCode :=
  .ofLengths (List.replicate 144 8 ++ List.replicate 112 9 ++ List.replicate 24 7
    ++ List.replicate 8 8)

/-- The fixed code for distances. -/
def fixedDistances : PrefixCode := .ofLengths (List.replicate 32 5)

/-- Expands a stored block: its size, the complement of its size, and its bytes. -/
def stored : Expander Unit := do
  align
  let size ← number 2
  let complement ← number 2
  require (size + complement = 0xffff)
  pass size

/-! ### Codes at the head of a block -/

/-- The order in which the lengths of the code for lengths are written. -/
def lengthOrder : List Nat :=
  [16, 17, 18, 0, 8, 7, 9, 6, 10, 5, 11, 4, 12, 3, 13, 2, 14, 1, 15]

/-- A prefix code that has to be complete. -/
def completeCode (lengths : List Nat) : Expander PrefixCode := do
  let c := PrefixCode.ofLengths lengths
  require c.isComplete
  return c

/-- A prefix code that may be incomplete if it is trivial. -/
def usableCode (lengths : List Nat) : Expander PrefixCode := do
  let c := PrefixCode.ofLengths lengths
  require (c.isComplete || c.isTrivial)
  return c

/-- Takes the code in which the lengths of the two codes are written. -/
def lengthCode (count : Nat) : Expander PrefixCode := do
  let lengths ← (List.range count).mapM fun _ => bits 3
  let written := lengthOrder.zip lengths
  completeCode ((List.range 19).map fun symbol => (written.lookup symbol).getD 0)

/-- The lengths that one symbol stands for: a length itself, the last one repeated, or zeros. -/
def lengthsOfSymbol (previous : Option Nat) (symbol : Nat) : Expander (List Nat) := do
  if symbol < 16 then
    return [symbol]
  else if symbol = 16 then
    match previous with
    | some length => return List.replicate (3 + (← bits 2)) length
    | none => corrupt
  else if symbol = 17 then
    return List.replicate (3 + (← bits 3)) 0
  else
    return List.replicate (11 + (← bits 7)) 0

/-- Takes `wanted` lengths behind those that are known; every symbol gives at least one. -/
def takeLengths (code : PrefixCode) (wanted : Nat) : Nat → List Nat → Expander (List Nat)
  | 0, known => return known
  | n + 1, known => do
    if wanted ≤ known.length then
      return known
    let symbol ← code.decode
    let more ← lengthsOfSymbol known.getLast? symbol
    takeLengths code wanted n (known ++ more)

/-- The greatest number of symbols for bytes and lengths in a code of a block's own. -/
def maxSymbolCount : Nat := 286

/-- The greatest number of symbols for distances in a code of a block's own. -/
def maxDistanceCount : Nat := 30

/-- Expands a block with codes of its own. -/
def dynamic : Expander Unit := do
  let symbolCount := (← bits 5) + 257
  let distanceCount := (← bits 5) + 1
  let lengthCount := (← bits 4) + 4
  require (symbolCount ≤ maxSymbolCount && distanceCount ≤ maxDistanceCount)
  let code ← lengthCode lengthCount
  let wanted := symbolCount + distanceCount
  let lengths ← takeLengths code wanted wanted []
  require (lengths.length = wanted)
  let symbols ← usableCode (lengths.take symbolCount)
  let distances ← usableCode (lengths.drop symbolCount)
  coded symbols distances

/-- Expands one block, and says whether another one follows. -/
def block : Expander Bool := do
  let isLast ← bit
  match ← bits 2 with
  | 0 => stored
  | 1 => coded fixedSymbols fixedDistances
  | 2 => dynamic
  | _ => corrupt
  return !isLast

/-- Expands a stream, and stops at the first byte behind it. -/
def stream : Expander Unit := do
  repeatWhile block
  align

end ReservoirPlot.Deflate
