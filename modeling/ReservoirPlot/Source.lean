/-
ReservoirPlot/Source.lean

Where bytes come from.  A source delivers its bytes first and only then says how
it ends, so whoever has read enough never learns of a failure behind that.
-/

namespace ReservoirPlot

/-- What happens when the bytes of a source run out. -/
inductive Ending
  /-- The source ends. -/
  | clean
  /-- The source breaks off, as a compressed file does that was cut. -/
  | truncated
  /-- The source fails in another way. -/
  | broken
deriving DecidableEq, Repr

/-- The bytes of a source, and what happens after them. -/
structure Source where
  bytes : List UInt8
  ending : Ending
deriving DecidableEq, Repr

namespace Source

/-- The source of some bytes that simply ends. -/
def ofBytes (bytes : List UInt8) : Source := ⟨bytes, .clean⟩

/-- A source of which nothing can be read, such as a directory. -/
def unreadable : Source := ⟨[], .broken⟩

end Source

end ReservoirPlot
