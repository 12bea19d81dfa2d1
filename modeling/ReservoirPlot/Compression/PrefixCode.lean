/-
ReservoirPlot/Compression/PrefixCode.lean

Prefix codes in canonical form.  The codewords of one length are consecutive
numbers, given to their symbols in ascending order, and they start right after
the codewords of the lengths below.  So the code is known from the lengths of
its codewords, and a codeword is recognised by its place among those of its
length: the place after one more bit is twice the place plus the bit, counted
from the first number that no shorter codeword covers.
-/
import ReservoirPlot.Compression.Expanding

namespace ReservoirPlot

/-- A canonical prefix code: for each length from one on, the symbols of that length. -/
structure PrefixCode where
  levels : List (Array Nat)

namespace PrefixCode

/-- The greatest length of a codeword. -/
def maxLength : Nat := 15

/-- The symbols whose codewords have a length, in ascending order. -/
def symbolsOfLength (lengths : List Nat) (length : Nat) : Array Nat :=
  (lengths.zipIdx.filterMap fun (l, symbol) => if l = length then some symbol else none).toArray

/-- The code whose `i`-th symbol has a codeword of the `i`-th length, zero meaning none. -/
def ofLengths (lengths : List Nat) : PrefixCode :=
  ⟨(List.range maxLength).map fun i => symbolsOfLength lengths (i + 1)⟩

/-- How much of the room for codewords is used, where a codeword of the greatest length
takes one. -/
def room : List (Array Nat) → Nat
  | [] => 0
  | level :: rest => level.size * Nat.pow 2 rest.length + room rest

/-- The number of symbols that have a codeword. -/
def symbolCount (c : PrefixCode) : Nat :=
  c.levels.foldl (fun n level => n + level.size) 0

/-- Whether the codewords fill the room exactly. -/
def isComplete (c : PrefixCode) : Bool := room c.levels = Nat.pow 2 maxLength

/-- Whether there is no codeword, or a single one of a single bit. -/
def isTrivial (c : PrefixCode) : Bool :=
  c.symbolCount = 0 || (c.symbolCount = 1 && c.levels.head?.any (·.size = 1))

/-- Takes the rest of a codeword whose start, so far, is in the given place.  A bit after which
no codeword of any length is left breaks the code at once. -/
def decodeFrom : List (Array Nat) → Nat → Expander Nat
  | [], _ => Expander.corrupt
  | level :: rest, place => do
    let b ← Expander.bit
    let place := 2 * place + b.toNat
    match level[place]? with
    | some symbol => return symbol
    | none =>
      if rest.all (·.isEmpty) then Expander.corrupt
      else decodeFrom rest (place - level.size)

/-- Takes a codeword and gives its symbol. -/
def decode (c : PrefixCode) : Expander Nat := decodeFrom c.levels 0

end PrefixCode

end ReservoirPlot
