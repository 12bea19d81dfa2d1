/-
ReservoirPlot/Series/Frame.lean

A vector as a signal.  A signal is a sequence of numbered frames: one for each
point that the time axis has a time for, and a last one that marks the end.  A
receiver may go away before the end; `Delivery` says what it got.
-/
import ReservoirPlot.Json.Printer
import ReservoirPlot.Series.Basic

namespace ReservoirPlot

/-- A frame of a signal. -/
structure Frame where
  /-- The elapsed time in days. -/
  timestamp : Binary64
  value : Binary64
  /-- The unit of the value. -/
  description : String
  sequence : Nat
  isEnd : Bool
deriving DecidableEq, Repr

namespace Frame

/-- The frame of a value. -/
def data (unit : String) (sequence : Nat) (time value : Binary32) : Frame :=
  ⟨.ofBinary32 time, .ofBinary32 value, unit, sequence, false⟩

/-- The frame after the last value. -/
def finish (sequence : Nat) : Frame :=
  ⟨.zero, .zero, "", sequence, true⟩

section

variable (unit : String) (sequence : Nat) (time value : Binary32)

@[simp] theorem timestamp_data :
    (data unit sequence time value).timestamp = .ofBinary32 time := rfl

@[simp] theorem value_data : (data unit sequence time value).value = .ofBinary32 value := rfl

@[simp] theorem description_data : (data unit sequence time value).description = unit := rfl

@[simp] theorem sequence_data : (data unit sequence time value).sequence = sequence := rfl

@[simp] theorem isEnd_data : (data unit sequence time value).isEnd = false := rfl

@[simp] theorem sequence_finish : (finish sequence).sequence = sequence := rfl

@[simp] theorem isEnd_finish : (finish sequence).isEnd = true := rfl

end

/-- The frame as JSON. -/
def json (f : Frame) : Json :=
  .object [("timestamp", .double f.timestamp), ("value", .double f.value),
    ("desc", .string f.description), ("seq", .nat f.sequence),
    ("end_flag", .bool f.isEnd)]

/-- The frame as it is sent. -/
def text (f : Frame) : String :=
  f.json.compact

end Frame

namespace Series

/-- The times and values of the points of a vector that the time axis has a time for. -/
def timedValues (s : Series) (v : SummaryVector) : List (Binary32 × Binary32) :=
  v.points.filterMap fun p => (s.timeAxis[p.index]?).map fun t => (t.time, p.value)

/-- The frames of a vector. -/
def frames (s : Series) (v : SummaryVector) : List Frame :=
  let values := s.timedValues v
  values.mapIdx (fun i tv => .data v.unit i tv.1 tv.2) ++ [.finish values.length]

theorem length_frames (s : Series) (v : SummaryVector) :
    (s.frames v).length = (s.timedValues v).length + 1 := by
  simp [frames]

/-- What a receiver got of a signal, and whether it went away while there was more. -/
structure Delivery where
  frames : List Frame
  broken : Bool
deriving DecidableEq, Repr

/-- Sends the signal of a keyword to a receiver that takes at most so many frames.  A
keyword that the series does not have gives no frame at all. -/
def send (s : Series) (keyword : String) (accepted? : Option Nat) : Delivery :=
  match s.vector? keyword with
  | none => ⟨[], false⟩
  | some v =>
    let all := s.frames v
    match accepted? with
    | none => ⟨all, false⟩
    | some n => ⟨all.take n, n < all.length⟩

end Series

end ReservoirPlot
