/-
ReservoirPlot/Compression/Zstd/FrameHeader.lean

The start of a Zstandard frame: a mark of four bytes and a header.  A frame with
a mark of another kind holds a number of bytes that are to be passed over.
-/
import ReservoirPlot.Compression.Bytes

namespace ReservoirPlot.Zstd

/-! ### Marks -/

/-- The number that marks a frame. -/
def magic : List UInt8 := [0x28, 0xb5, 0x2f, 0xfd]

/-- Whether bytes start the number that marks a frame to be passed over. -/
def startsSkippable (mark : List UInt8) : Bool :=
  match mark with
  | [] => true
  | b :: rest => b.toNat / 16 = 5 && rest.isPrefixOf [0x2a, 0x4d, 0x18]

/-- The flags of a header are in the first byte behind the mark. -/
def flagsOf (start : List UInt8) : Nat := (start.getD 4 0).toNat

/-- Whether the window of a frame is its output as a whole. -/
def isSingle (flags : Nat) : Bool := flags.testBit 5

/-- The size of the description of the window. -/
def windowWidth (flags : Nat) : Nat := if isSingle flags then 0 else 1

/-- The size of the name of a dictionary. -/
def dictionaryWidth (flags : Nat) : Nat := if flags % 4 = 3 then 4 else flags % 4

/-- The size of the size of the output. -/
def sizeWidth (flags : Nat) : Nat :=
  if flags / 64 = 0 then (if isSingle flags then 1 else 0) else Nat.pow 2 (flags / 64)

/-- The size of the start of a frame to be passed over: its mark, and a number. -/
def skippableStartSize : Nat := 8

/-- The least number of bytes that tell the size of a start. -/
def leastStartSize : Nat := 5

/-- How many bytes belong to a start, as far as it is known from those that are there; nothing
if they do not start a frame. -/
def startSize? (start : List UInt8) : Option Nat :=
  let mark := start.take 4
  if start.length < leastStartSize then
    if mark.isPrefixOf magic || startsSkippable mark then some leastStartSize else none
  else if mark = magic then
    let flags := flagsOf start
    some (leastStartSize + windowWidth flags + dictionaryWidth flags + sizeWidth flags)
  else if startsSkippable mark then some skippableStartSize
  else none

/-! ### Headers -/

/-- What the header of a frame says. -/
structure FrameHeader where
  /-- The size of the frame's output, if it is told. -/
  size? : Option Nat
  /-- Whether a check value follows the last block. -/
  contentCheck : Bool
  /-- Whether a dictionary is needed. -/
  needsDictionary : Bool
  windowSize : Nat
deriving DecidableEq, Repr

namespace FrameHeader

/-- The greatest size of a block in any frame. -/
def blockSizeLimit : Nat := 0x20000

/-- The greatest size of a block in this frame. -/
def maxBlockSize (h : FrameHeader) : Nat := min h.windowSize blockSizeLimit

/-- The size of the window that a byte describes: a power of two and some eighths of it. -/
def windowSizeOf (b : UInt8) : Nat :=
  let base := Nat.pow 2 (10 + b.toNat / 8)
  base + base / 8 * (b.toNat % 8)

/-- The greatest power of two from which a window may be described. -/
def maxWindowLog : Nat := 31

/-- The size of the output; two bytes start to count where one byte ends. -/
def sizeOf (written : List UInt8) : Option Nat :=
  match written.length with
  | 0 => none
  | 2 => some (littleEndian written + 256)
  | _ => some (littleEndian written)

/-- The greatest number of eight bytes stands for a size that is not told. -/
def untoldSize : Nat := 0xffffffffffffffff

/-- The header in a complete start.  A frame in a single segment describes no window: its
window is its output. -/
def ofStart? (start : List UInt8) : Option FrameHeader :=
  let flags := flagsOf start
  let window := start.getD leastStartSize 0
  let rest := start.drop (leastStartSize + windowWidth flags)
  let dictionary := littleEndian (rest.take (dictionaryWidth flags))
  let size? := (sizeOf (rest.drop (dictionaryWidth flags))).filter (· ≠ untoldSize)
  if flags.testBit 3 then none
  else if !isSingle flags && maxWindowLog < 10 + window.toNat / 8 then none
  else some {
    size? := size?
    contentCheck := flags.testBit 2
    needsDictionary := dictionary ≠ 0
    windowSize := if isSingle flags then size?.getD untoldSize else windowSizeOf window }

end FrameHeader

end ReservoirPlot.Zstd
