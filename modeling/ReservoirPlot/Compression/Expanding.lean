/-
ReservoirPlot/Compression/Expanding.lean

A compressed source in the course of being expanded bit by bit.  An expander
takes bytes or single bits from the front of the source and appends to the
output; the output is kept when it is interrupted.

The source is fetched in pieces of a fixed size, and what was expanded up to a
fetch can be had before it.  So the expansion notes how far the output has come
whenever a piece is fetched (`Expanding.fetches`).

Loops over a compressed source have no count.  Every turn of such a loop takes
at least one bit, so the number of bits that are left bounds the number of turns
(`Expander.repeatWhile`).
-/
import ReservoirPlot.Compression.Bytes

namespace ReservoirPlot

/-- Why an expansion stops before its format is complete. -/
inductive Interruption
  /-- The compressed bytes ran out. -/
  | exhausted
  /-- The compressed bytes break a rule of the format. -/
  | corrupt
deriving DecidableEq, Repr

/-- A compressed source in the course of being expanded. -/
structure Expanding where
  /-- The bits that are left of the byte taken last, the next one first. -/
  pending : List Bool
  unread : List UInt8
  /-- The number of bytes taken. -/
  taken : Nat
  output : Array UInt8
  /-- The sizes of the output at which a further piece was fetched, the latest first. -/
  fetches : List Nat

/-- The source of some bytes before anything is expanded. -/
def Expanding.start (bytes : List UInt8) : Expanding := ⟨[], bytes, 0, #[], []⟩

/-- A step of an expansion. -/
abbrev Expander := EStateM Interruption Expanding

namespace Expander

/-! ### Taking -/

/-- The size of the pieces in which the source is fetched. -/
def pieceSize : Nat := 32768

/-- The bytes break a rule of the format. -/
def corrupt {α : Type} : Expander α := throw .corrupt

/-- A rule of the format. -/
def require (holds : Bool) : Expander Unit :=
  unless holds do corrupt

/-- The next byte.  A piece is fetched for its first byte; there is always one at the start. -/
def byte : Expander UInt8 := fun s =>
  match s.unread with
  | b :: rest =>
    let fetches :=
      if s.taken % pieceSize = 0 && s.taken != 0 then s.output.size :: s.fetches else s.fetches
    .ok b { s with unread := rest, taken := s.taken + 1, fetches := fetches }
  | [] => .error .exhausted s

/-- The next `n` bytes. -/
def bytes : Nat → Expander (List UInt8)
  | 0 => pure []
  | n + 1 => do
    let b ← byte
    let rest ← bytes n
    return b :: rest

/-- Passes over the next `n` bytes. -/
def passOver : Nat → Expander Unit
  | 0 => pure ()
  | n + 1 => do
    let _ ← byte
    passOver n

/-- The next `n` bytes as a number, the lowest first. -/
def number (n : Nat) : Expander Nat := do
  return littleEndian (← bytes n)

/-- The next bit: bits are taken from the lowest of a byte upwards. -/
def bit : Expander Bool := fun s =>
  match s.pending with
  | b :: pending => .ok b { s with pending := pending }
  | [] =>
    match byte s with
    | .ok x s =>
      match bitsOfByte x with
      | b :: pending => .ok b { s with pending := pending }
      | [] => .error .corrupt s
    | .error e s => .error e s

/-- The next `n` bits as a number, the lowest first. -/
def bits : Nat → Expander Nat
  | 0 => pure 0
  | n + 1 => do
    let b ← bit
    let high ← bits n
    return b.toNat + 2 * high

/-- Passes over the bits that are left of the byte taken last. -/
def align : Expander Unit :=
  modify fun s => { s with pending := [] }

/-! ### Giving -/

/-- Appends a byte to the output. -/
def emit (b : UInt8) : Expander Unit :=
  modify fun s => { s with output := s.output.push b }

/-- Moves the next `n` bytes to the output, as far as there are so many. -/
def pass : Nat → Expander Unit
  | 0 => pure ()
  | n + 1 => do
    emit (← byte)
    pass n

/-- Repeats earlier output. -/
def copyBack (distance length : Nat) : Expander Unit :=
  modify fun s => { s with output := repeated distance length s.output }

/-! ### Repeating -/

/-- Repeats a step as long as it asks for more, at most `n` times. -/
def repeatAtMost (step : Expander Bool) : Nat → Expander Unit
  | 0 => corrupt
  | n + 1 => do
    if ← step then repeatAtMost step n

/-- Repeats a step as long as it asks for more.  The step takes at least one bit whenever it
asks for more, so it is repeated no more often than there are bits. -/
def repeatWhile (step : Expander Bool) : Expander Unit := do
  let s ← get
  repeatAtMost step (s.pending.length + 8 * s.unread.length + 1)

end Expander

end ReservoirPlot
