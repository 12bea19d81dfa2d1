/-
ReservoirPlot/Plot/Supply.lean

Where a stream gets bytes from that are not at hand.  A supply has ended, or it
is a compressed file that expands as bytes are demanded.

How much a read demands at a time is its pace.  It matters because a fault in a
compressed file takes with it what has been expanded for the same demand.
-/
import ReservoirPlot.Compression.Basic

namespace ReservoirPlot

/-! ### Paces -/

/-- How a read demands the bytes that it is missing. -/
inductive Pace
  /-- All at once. -/
  | whole
  /-- In pieces of a fixed size. -/
  | even
  /-- A few at first, to see whether there are any, and then growing. -/
  | probing
  /-- Into room that is made as bytes arrive: `gathered` bytes are there, room has been made for
  `room` of them, and no demand is greater than `limit`. -/
  | growing (gathered room limit : Nat)
deriving DecidableEq, Repr

namespace Pace

/-- The size of the pieces, and the first limit of a pace that grows. -/
def pieceSize : Nat := 8192

/-- How many bytes are demanded at first, and the least room that is made at a time. -/
def probeSize : Nat := 32

/-- The least room for what has come at first. -/
def leastRoom : Nat := 8

/-- The pace that makes room for more if the room is full. -/
def grown (gathered room limit : Nat) : Pace :=
  growing gathered (if room = gathered then max (2 * room) (gathered + probeSize) else room) limit

/-- How many bytes are demanded while `missing` ones are missing. -/
def demand (missing : Nat) : Pace → Nat
  | whole => missing
  | even => min missing pieceSize
  | probing => min missing probeSize
  | growing gathered room limit => min missing (min (room - gathered) limit)

/-- The pace after `count` bytes have come.  A limit that was used up is doubled. -/
def next (count : Nat) : Pace → Pace
  | whole => whole
  | even => even
  | probing => grown count (max leastRoom count) pieceSize
  | growing gathered room limit =>
    let isUsedUp := limit ≤ room - gathered && count = limit
    grown (gathered + count) room (if isUsedUp then 2 * limit else limit)

end Pace

/-! ### Supplies -/

/-- Where a stream gets bytes from that are not at hand. -/
inductive Supply
  | ended (ending : Ending)
  /-- A compressed file, from which no more than `bound` bytes come. -/
  | expanding (x : Expansion) (bound : Nat)
deriving DecidableEq, Repr

namespace Supply

/-- No format makes as many bytes out of one. -/
def maxGrowth : Nat := 0x400000

/-- The supply from an expansion of `size` bytes, of which the bound is never met. -/
def ofExpansion (x : Expansion) (size : Nat) : Supply :=
  .expanding x (maxGrowth * (size + 1))

/-- How many bytes can still come, at most. -/
def bound : Supply → Nat
  | ended _ => 0
  | expanding _ bound => bound

/-- Meets a demand for `n` bytes.  No bytes come when the supply has ended. -/
def deliver (n : Nat) : Supply → List UInt8 × Supply
  | ended e => ([], ended e)
  | expanding x bound =>
    match x.deliver n with
    | .bytes given x =>
      let given := given.take (min n bound)
      (given, expanding x (bound - given.length))
    | .ended e => ([], ended e)

/-- No more bytes come than were demanded. -/
theorem length_deliver_le (n : Nat) (s : Supply) : (s.deliver n).1.length ≤ n := by
  cases s with
  | ended e => exact Nat.zero_le _
  | expanding x bound =>
    simp only [deliver]
    split
    · simp only [List.length_take]; omega
    · exact Nat.zero_le _

/-- Bytes that have come do not come again. -/
theorem bound_deliver_le (n : Nat) (s : Supply) :
    (s.deliver n).1.length + (s.deliver n).2.bound ≤ s.bound := by
  cases s with
  | ended e => exact Nat.le_refl _
  | expanding x bound =>
    simp only [deliver]
    split
    · simp only [Supply.bound, List.length_take]; omega
    · exact Nat.zero_le _

/-- Gathers the bytes that a read is missing, as far as they come. -/
def gather (pace : Pace) (missing : Nat) (s : Supply) : List UInt8 × Supply :=
  if missing = 0 then ([], s)
  else
    let d := s.deliver (min missing (pace.demand missing))
    if d.1.isEmpty then d
    else
      let rest := gather (pace.next d.1.length) (missing - d.1.length) d.2
      (d.1 ++ rest.1, rest.2)
termination_by missing
decreasing_by
  have hd : 0 < d.1.length := List.length_pos_iff.2 (by simpa using ‹¬d.1.isEmpty = true›)
  simp only [d] at hd
  omega

/-- Bytes that have been gathered do not come again. -/
theorem bound_gather_le (pace : Pace) (missing : Nat) (s : Supply) :
    (s.gather pace missing).1.length + (s.gather pace missing).2.bound ≤ s.bound := by
  fun_induction gather pace missing s with
  | case1 => exact Nat.le_of_eq (Nat.zero_add _)
  | case2 pace missing s _ d _ => exact bound_deliver_le _ s
  | case3 pace missing s _ d _ rest ih =>
    have := bound_deliver_le (min missing (pace.demand missing)) s
    simp only [List.length_append, rest, d] at ih ⊢; omega

/-- A supply that has ended gives nothing. -/
@[simp] theorem gather_ended (pace : Pace) (missing : Nat) (e : Ending) :
    (ended e).gather pace missing = ([], ended e) := by
  rw [gather]; split <;> rfl

end Supply

end ReservoirPlot
