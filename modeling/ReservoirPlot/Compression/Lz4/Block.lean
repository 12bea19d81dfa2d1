/-
ReservoirPlot/Compression/Lz4/Block.lean

Blocks of the LZ4 format that are written as sequences of literals and
repetitions.  A sequence starts with a token, whose upper half is the number of
its literals and whose lower half is the length of its repetition less four;
fifteen in either half says that more of the number follows.

A block ends with literals, and the format keeps repetitions away from the end
of a block.  How far away depends on where the block is looked at, because far
from either end sequences are expanded without much care (`Mode.swift`).  A
swift expansion that comes near an end goes on with care and stays with it.
-/
import ReservoirPlot.Compression.Bytes

namespace ReservoirPlot.Lz4

/-! ### Amounts -/

/-- The further bytes of an amount, as long as they are 255.  Behind each of them at least
`least` bytes of the block have to be left.  Gives the amount and the place behind it. -/
def furtherAmount (block : Array UInt8) (least : Nat) :
    Nat → Nat → Nat → Option (Nat × Nat)
  | 0, _, _ => none
  | turns + 1, amount, place =>
    let b := block.getD place 0
    let amount := amount + b.toNat
    let place := place + 1
    if block.size < place + least then none
    else if b = 255 then furtherAmount block least turns amount place
    else some (amount, place)

/-- The bytes that have to be left behind a number of literals. -/
def leastBehindLiteralCount : Nat := 15

/-- The bytes that have to be left behind the length of a repetition. -/
def leastBehindLength : Nat := 4

/-- The least length of a repetition. -/
def leastLength : Nat := 4

/-- The number of literals that starts with the upper half of a token. -/
def literalCount (block : Array UInt8) (half place : Nat) : Option (Nat × Nat) :=
  if half < 15 then some (half, place)
  else if block.size ≤ place + leastBehindLiteralCount then none
  else furtherAmount block leastBehindLiteralCount block.size 15 place

/-- The length that starts with the lower half of a token. -/
def repetitionLength (block : Array UInt8) (half place : Nat) : Option (Nat × Nat) :=
  if half < 15 then some (half + leastLength, place)
  else do
    let (amount, place) ← furtherAmount block leastBehindLength block.size 15 place
    return (amount + leastLength, place)

/-! ### Sequences -/

/-- How closely the ends of a block are watched. -/
inductive Mode
  | swift
  | careful
deriving DecidableEq, Repr

/-- A block in the course of being expanded. -/
structure Expansion where
  mode : Mode
  /-- The place of the next byte of the block. -/
  place : Nat
  /-- What came before the block and what the block has given. -/
  output : Array UInt8

/-- What stays the same while a block is expanded. -/
structure BlockContext where
  block : Array UInt8
  /-- The size of the output at the start of the block. -/
  start : Nat
  /-- The greatest size of a block's output. -/
  room : Nat

namespace BlockContext

/-- What came before the block takes no room. -/
def used (c : BlockContext) (output : Array UInt8) : Nat := output.size - c.start

/-- The output with literals from a place of the block. -/
def withLiterals (c : BlockContext) (place count : Nat) (output : Array UInt8) : Array UInt8 :=
  output ++ c.block.extract place (place + count)

/-- The distance at a place of the block. -/
def distance (c : BlockContext) (place : Nat) : Nat :=
  (c.block.getD place 0).toNat + 256 * (c.block.getD (place + 1) 0).toNat

/-- What a sequence makes of a block. -/
inductive Outcome
  | onward (x : Expansion)
  | complete (output : Array UInt8)
  | corrupt

/-- A repetition that is watched: it stays five bytes away from the end. -/
def repeatCarefully (c : BlockContext) (distance length place : Nat) (output : Array UInt8) :
    Outcome :=
  if output.size < distance || c.room < c.used output + length + 5 then .corrupt
  else .onward ⟨.careful, place, repeated distance length output⟩

/-- The repetition behind literals: its distance is at `place`. -/
def repetition (c : BlockContext) (mode : Mode) (half place : Nat) (output : Array UInt8) :
    Outcome :=
  let distance := c.distance place
  match repetitionLength c.block half (place + 2) with
  | none => .corrupt
  | some (length, place) =>
    if mode = .careful || c.room ≤ c.used output + length + 64 then
      c.repeatCarefully distance length place output
    else if output.size < distance then .corrupt
    else .onward ⟨.swift, place, repeated distance length output⟩

/-- Literals that are watched, and what follows them.  Literals near either end have to be the
last ones, and end exactly with the block. -/
def literalsCarefully (c : BlockContext) (count half place : Nat) (output : Array UInt8) :
    Outcome :=
  let used := c.used output + count
  if c.room < used + 12 || c.block.size < place + count + 8 then
    if place + count = c.block.size && used ≤ c.room then
      .complete (c.withLiterals place count output)
    else .corrupt
  else c.repetition .careful half (place + count) (c.withLiterals place count output)

/-- A sequence far from the end of the room. -/
def swiftSequence (c : BlockContext) (upper lower place : Nat) (output : Array UInt8) :
    Outcome :=
  match literalCount c.block upper place with
  | none => .corrupt
  | some (count, next) =>
    let near :=
      if upper < 15 then c.block.size < place + 17
      else c.room < c.used output + count + 32 || c.block.size < next + count + 32
    if near then c.literalsCarefully count lower next output
    else c.repetition .swift lower (next + count) (c.withLiterals next count output)

/-- A sequence that is watched.  One with few literals that is not close to an end may still
repeat up to the end of the room, from within what is there and not from the last bytes. -/
def carefulSequence (c : BlockContext) (upper lower place : Nat) (output : Array UInt8) :
    Outcome :=
  if upper < 15 && place + 16 < c.block.size && c.used output + 32 ≤ c.room then
    let output := c.withLiterals place upper output
    let place := place + upper
    let distance := c.distance place
    if lower < 15 && 8 ≤ distance && distance ≤ output.size then
      .onward ⟨.careful, place + 2, repeated distance (lower + leastLength) output⟩
    else c.repetition .careful lower place output
  else
    match literalCount c.block upper place with
    | none => .corrupt
    | some (count, place) => c.literalsCarefully count lower place output

/-- Expands the next sequence. -/
def sequence (c : BlockContext) (x : Expansion) : Outcome :=
  match c.block[x.place]? with
  | none => .corrupt
  | some token =>
    let upper := token.toNat / 16
    let lower := token.toNat % 16
    match x.mode with
    | .swift => c.swiftSequence upper lower (x.place + 1) x.output
    | .careful => c.carefulSequence upper lower (x.place + 1) x.output

/-- Expands sequences up to the end of the block.  Every sequence takes a byte, so there are at
most as many turns as bytes. -/
def sequences (c : BlockContext) : Nat → Expansion → Option (Array UInt8)
  | 0, _ => none
  | turns + 1, x =>
    match c.sequence x with
    | .onward x => sequences c turns x
    | .complete output => some output
    | .corrupt => none

end BlockContext

/-- What a block stands for, or nothing if it breaks a rule.  Repetitions may reach back into
`history`. -/
def expandBlock (room : Nat) (history : List UInt8) (block : List UInt8) :
    Option (List UInt8) :=
  let c : BlockContext := ⟨block.toArray, history.length, room⟩
  (c.sequences (c.block.size + 1) ⟨.swift, 0, history.toArray⟩).map fun output =>
    (output.extract c.start output.size).toList

end ReservoirPlot.Lz4
