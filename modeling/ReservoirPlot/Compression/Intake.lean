/-
ReservoirPlot/Compression/Intake.lean

The two ends of an expansion.  At one end it takes compressed bytes, a piece at
a time (`Intake`); at the other it is asked for a number of expanded bytes and
delivers some of them, or says how it ends (`Delivery`).

A delivery that meets a fault gives nothing, not even the bytes that it has
already expanded for the same demand.  So what is read in front of a fault
depends on how much is asked for at a time.
-/
import ReservoirPlot.Source

namespace ReservoirPlot

/-- Compressed bytes that are still to be taken. -/
structure Intake where
  unread : List UInt8
  /-- Behind a buffer, how many of them the buffer holds. -/
  held? : Option Nat
deriving DecidableEq, Repr

namespace Intake

/-- The number of bytes for which a buffer has room. -/
def bufferSize : Nat := 8192

/-- The next piece, of at most `n` bytes.  A buffer is filled only when it is empty, and a demand
as great as the buffer passes an empty one by. -/
def take (n : Nat) (i : Intake) : List UInt8 × Intake :=
  match i.held? with
  | none => (i.unread.take n, { i with unread := i.unread.drop n })
  | some held =>
    if held = 0 && bufferSize ≤ n then (i.unread.take n, { i with unread := i.unread.drop n })
    else
      let held := if held = 0 then (i.unread.take bufferSize).length else held
      let size := min n held
      (i.unread.take size, ⟨i.unread.drop size, some (held - size)⟩)

end Intake

/-- What comes of a demand for bytes. -/
inductive Delivery (Rest : Type)
  /-- Some bytes, at least one, and what is to be asked next. -/
  | bytes (given : List UInt8) (rest : Rest)
  /-- Nothing, now and from now on. -/
  | ended (ending : Ending)
deriving Repr

namespace Delivery

/-- The delivery of some bytes, where no bytes mean that nothing more will come. -/
def ofGiven {Rest : Type} (given : List UInt8) (rest : Rest) : Delivery Rest :=
  if given.isEmpty then .ended .clean else .bytes given rest

/-- The same delivery with a different rest. -/
def map {Rest Rest' : Type} (f : Rest → Rest') : Delivery Rest → Delivery Rest'
  | bytes given rest => .bytes given (f rest)
  | ended e => .ended e

end Delivery

end ReservoirPlot
