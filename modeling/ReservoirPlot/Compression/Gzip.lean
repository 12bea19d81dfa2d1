/-
ReservoirPlot/Compression/Gzip.lean

The gzip format: a header with optional parts, a deflate stream, and a trailer
with the check value and the size of what was expanded.  Only the first member
of a file is expanded; what stands behind it is not looked at.

What was expanded comes in parts.  A part ends where a further piece of the file
has to be fetched, and where the window in which the output is gathered is full.
A demand is met from one part; only from the end of a full window it goes on to
the next part at once (`Gzip.Reader.deliver`).  A fault in the deflate stream
takes with it what the window holds at that point.

The check value is the 32-bit cyclic redundancy check with the reflected polynomial
0xedb88320, started from all ones and complemented at the end.
-/
import ReservoirPlot.Compression.Deflate
import ReservoirPlot.Compression.Intake

namespace ReservoirPlot

namespace Crc32

/-- One bit of the division. -/
def step (r : UInt32) : UInt32 :=
  if r % 2 = 1 then (r / 2) ^^^ 0xedb88320 else r / 2

/-- The register after one more byte. -/
def next (r : UInt32) (b : UInt8) : UInt32 :=
  (List.range 8).foldl (fun r _ => step r) (r ^^^ b.toUInt32)

/-- The check value of some bytes. -/
def ofBytes (bytes : List UInt8) : UInt32 :=
  bytes.foldl next 0xffffffff ^^^ 0xffffffff

end Crc32

namespace Gzip

open Expander

/-! ### Members -/

/-- The first bytes of a member: the two that mark the format, and the method. -/
def magic : List UInt8 := [0x1f, 0x8b, 8]

/-- The greatest number of bytes of a name or a comment in the header. -/
def maxTextSize : Nat := 65535

/-- Passes over a text that ends with a zero byte. -/
def skipText : Expander Unit := do
  let text := (← get).unread.takeWhile (· != 0)
  require (text.length ≤ maxTextSize)
  passOver (text.length + 1)

/-- Passes over the header.  The bits of its fourth byte say which parts are there. -/
def header : Expander Unit := do
  let start := (← get).unread
  let fixed ← bytes 10
  require (fixed.take 3 = magic)
  let parts := (fixed.getD 3 0).toNat
  require (parts < 0x20)
  if parts.testBit 2 then
    passOver (← number 2)
  if parts.testBit 3 then
    skipText
  if parts.testBit 4 then
    skipText
  if parts.testBit 1 then
    let passed := start.take (← get).taken
    require ((← number 2) = (Crc32.ofBytes passed).toNat % 0x10000)

/-- Compares the trailer with what was expanded. -/
def trailer : Expander Unit := do
  let written ← bytes 8
  let output := (← get).output
  require (littleEndian (written.take 4) = (Crc32.ofBytes output.toList).toNat)
  require (littleEndian (written.drop 4) = output.size % 0x100000000)

/-! ### Parts -/

/-- The size of the window in which output is gathered. -/
def windowSize : Nat := 32768

/-- A part of what was expanded. -/
inductive Part
  /-- Bytes, and whether a demand goes on behind them. -/
  | bytes (content : List UInt8) (goesOn : Bool)
  /-- A fault. -/
  | fault
deriving DecidableEq, Repr

/-- Bytes cut after `room` of them and then after each full window. -/
def windows (room : Nat) (content : List UInt8) : List (List UInt8) :=
  if content.length ≤ room ∨ room = 0 then [content]
  else content.take room :: windows windowSize (content.drop room)
termination_by content.length
decreasing_by simp only [List.length_drop]; omega

/-- The windows of what was expanded between two fetches, the first of which came when the
output had the size `start`. -/
def windowsFrom (start : Nat) (content : List UInt8) : List (List UInt8) :=
  windows (windowSize - start % windowSize) content

/-- What was expanded from one fetch to the next as parts: a demand goes on behind all windows
but the last one. -/
def partsOf (start : Nat) (content : List UInt8) : List Part :=
  let contents := windowsFrom start content
  contents.dropLast.map (Part.bytes · true) ++ contents.getLast?.toList.map (Part.bytes · false)

/-- What was expanded from the last fetch to a fault. -/
def faultyPartsOf (start : Nat) (content : List UInt8) : List Part :=
  (windowsFrom start content).dropLast.map (Part.bytes · true) ++ [.fault]

/-- The output as parts; `fetches` are the sizes of the output at the fetches, the latest last,
and `last` makes parts of what follows the last fetch. -/
def partsBetween (last : Nat → List UInt8 → List Part) :
    Nat → List Nat → List UInt8 → List Part
  | start, [], output => last start output
  | start, fetch :: fetches, output =>
    partsOf start (output.take (fetch - start))
      ++ partsBetween last fetch fetches (output.drop (fetch - start))

/-! ### Reading -/

/-- A member in the course of being read. -/
structure Reader where
  /-- What is left of the part read last. -/
  pending : List UInt8
  parts : List Part
  /-- How the member ends behind all parts. -/
  ending : Ending
deriving DecidableEq, Repr

/-- How a member ends that was interrupted. -/
def endingOf : Interruption → Ending
  | .exhausted => .truncated
  | .corrupt => .broken

/-- The parts of what has been expanded. -/
def partsOfExpanding (last : Nat → List UInt8 → List Part) (s : Expanding) : List Part :=
  (partsBetween last 0 s.fetches.reverse s.output.toList).filter (· != .bytes [] false)

/-- The first member in some bytes. -/
def Reader.ofBytes (file : List UInt8) : Reader :=
  match header (.start file) with
  | .error e _ => ⟨[], [], endingOf e⟩
  | .ok _ s =>
    match Deflate.stream s with
    | .error .corrupt s => ⟨[], partsOfExpanding faultyPartsOf s, .broken⟩
    | .error .exhausted s => ⟨[], partsOfExpanding partsOf s, .truncated⟩
    | .ok _ s =>
      let parts := partsOfExpanding partsOf s
      match trailer s with
      | .ok _ _ => ⟨[], parts, .clean⟩
      | .error e _ => ⟨[], parts, endingOf e⟩

/-- Meets a demand for `n` bytes from parts. -/
def Reader.gather (ending : Ending) : Nat → List UInt8 → List Part → Delivery Reader
  | _, given, [] => if given.isEmpty then .ended ending else .bytes given ⟨[], [], ending⟩
  | _, _, .fault :: _ => .ended .broken
  | n, given, .bytes content goesOn :: parts =>
    let size := content.length
    let given := given ++ content.take n
    if goesOn && size < n then gather ending (n - size) given parts
    else .bytes given ⟨content.drop n, parts, ending⟩

/-- Meets a demand for `n` bytes. -/
def Reader.deliver (n : Nat) (r : Reader) : Delivery Reader :=
  match r.pending with
  | [] => gather r.ending n [] r.parts
  | pending => .bytes (pending.take n) { r with pending := pending.drop n }

end Gzip

end ReservoirPlot
