/-
ReservoirPlot/Compression/Zstd/Reader.lean

Zstandard frames in the course of being read.  Frames follow one another up to
the end of the file, and each has to be complete.

The file is taken in pieces.  The output of a frame is gathered in a ring of a
size that its header determines, and a demand is met from one run over a piece:
the run ends when the demand is met, the piece is used up, or a frame ends.  A
fault that comes up in a run takes with it what the run has given.
-/
import ReservoirPlot.Compression.Intake
import ReservoirPlot.Compression.Zstd.Block

namespace ReservoirPlot.Zstd

/-! ### Stages -/

/-- Where in a frame the reading is.  Bytes that were seen are kept until there are enough. -/
inductive Stage
  | start (seen : List UInt8)
  /-- In a frame that is passed over. -/
  | skipping (missing : Nat)
  | blockHead (seen : List UInt8)
  | stored (missing : Nat) (isLast : Bool)
  | repeating (size : Nat) (isLast : Bool)
  /-- In a block that cannot be expanded. -/
  | written (missing : Nat)
  | check (seen : List UInt8)
  /-- Behind a frame. -/
  | complete
deriving DecidableEq, Repr

/-- The sizes of the memory that a reader has reserved; they never shrink. -/
structure Room where
  input : Nat
  ring : Nat
deriving DecidableEq, Repr

/-- The room that a frame needs: for a block or a check value, and for the window, two blocks
and a margin, or for the whole output where that is less. -/
def Room.ofHeader (h : FrameHeader) : Room :=
  let window := max h.windowSize 1024
  let block := min (min window FrameHeader.blockSizeLimit) h.maxBlockSize
  let ring := window + 2 * block + 64
  ⟨max h.maxBlockSize 4, (h.size?.map (min ring)).getD ring⟩

/-- The room after a frame has asked for some. -/
def Room.grown (r needed : Room) : Room :=
  if r.input < needed.input || r.ring < needed.ring then needed else r

/-- Frames in the course of being read. -/
structure Reader where
  intake : Intake
  /-- What is left of the piece taken last. -/
  piece : List UInt8
  stage : Stage
  header : FrameHeader
  /-- What the frame has held so far, the latest bytes first, if it has a check value. -/
  content : List (List UInt8)
  size : Nat
  room : Room
  /-- The place in the ring up to which everything has been given. -/
  given : Nat
  /-- What is in the ring and has not been given. -/
  pending : List UInt8
  /-- Whether the last frame that was begun is complete. -/
  finished : Bool
  /-- More steps than can be taken. -/
  limit : Nat
deriving DecidableEq, Repr

/-- What comes of one step. -/
inductive Step
  | onward (r : Reader) (given : List UInt8)
  /-- The run ends. -/
  | pause (r : Reader) (given : List UInt8)
  | corrupt

namespace Reader

/-- The size of the pieces. -/
def pieceSize : Nat := 131075

/-- The greatest window for which room is made. -/
def maxWindowSize : Nat := 0x8000001

/-- A reader at the start of some bytes. -/
def ofIntake (intake : Intake) : Reader where
  intake := intake
  piece := []
  stage := .start []
  header := ⟨none, false, false, 0⟩
  content := []
  size := 0
  room := ⟨0, 0⟩
  given := 0
  pending := []
  finished := false
  limit := 4 * (intake.unread.length + 2)

/-- What has been seen, completed to `n` bytes from the piece as far as it goes. -/
def complete (r : Reader) (n : Nat) (seen : List UInt8) : List UInt8 × Reader :=
  let missing := n - seen.length
  (seen ++ r.piece.take missing, { r with piece := r.piece.drop missing })

/-! ### Steps -/

/-- The reader at the first block of a frame. -/
def enter (r : Reader) (h : FrameHeader) : Step :=
  if h.needsDictionary || maxWindowSize < h.windowSize then .corrupt
  else .onward { r with
    stage := .blockHead [], header := h, content := [], size := 0
    room := r.room.grown (.ofHeader h), given := 0 } []

/-- Begins a frame with a complete start.  If the start has been seen in this run, the whole
frame may be at hand. -/
def begin (r : Reader) (room : Nat) (isFresh : Bool) (start : List UInt8) : Step :=
  if start.take 4 ≠ magic then
    .onward { r with stage := .skipping (littleEndian (start.drop 4)) } []
  else
    match FrameHeader.ofStart? start with
    | none => .corrupt
    | some h =>
      match h.size?.filter fun size => isFresh && size ≤ room with
      | none => r.enter h
      | some size =>
        match frameAtHand h r.piece with
        | none => r.enter h
        | some (blocks, check, piece) =>
          match expandWhole h size blocks check with
          | none => .corrupt
          | some content => .pause { r with piece, stage := .start [], finished := true } content

/-- Completes the start of a frame. -/
def stepStart (r : Reader) (room : Nat) (isFresh : Bool) (seen : List UInt8) : Step :=
  match startSize? seen with
  | none => .corrupt
  | some size =>
    if size ≤ seen.length then r.begin room isFresh seen
    else
      let (seen, r) := r.complete size seen
      let r := { r with stage := .start seen }
      if size ≤ seen.length then .onward r []
      else if (startSize? seen).isNone then .corrupt
      else .pause r []

/-- Passes over bytes. -/
def stepSkipping (r : Reader) (missing : Nat) : Step :=
  let size := (r.piece.take missing).length
  let r := { r with piece := r.piece.drop size }
  if size < missing then .pause { r with stage := .skipping (missing - size) } []
  else .onward { r with stage := .complete } []

/-- What follows the last block of a frame. -/
def afterLast (r : Reader) : Stage :=
  if r.header.contentCheck then .check [] else .complete

/-- Completes the head of a block.  A block that is empty as it stands is passed over. -/
def stepBlockHead (r : Reader) (seen : List UInt8) : Step :=
  let (seen, r) := r.complete blockHeadSize seen
  if seen.length < blockHeadSize then .pause { r with stage := .blockHead seen } []
  else
    match BlockHead.ofBytes? seen with
    | none => .corrupt
    | some head =>
      if r.header.maxBlockSize < head.width then .corrupt
      else if head.width = 0 then
        .onward { r with stage := if head.isLast then r.afterLast else .blockHead [] } []
      else
        let stage := match head.kind with
          | .stored => .stored head.size head.isLast
          | .repeating => .repeating head.size head.isLast
          | .written => .written head.size
        .onward { r with stage := stage } []

/-- Whether the output has the size that the header tells. -/
def hasToldSize (r : Reader) : Bool := r.header.size?.all (· = r.size)

/-- Takes output of a block into the ring, behind which `missing` bytes of the block follow. -/
def gather (r : Reader) (output : List UInt8) (missing : Nat) (isLast : Bool) : Step :=
  let size := output.length
  if r.room.ring - r.given < size || r.header.maxBlockSize < size then .corrupt
  else
    let content := if r.header.contentCheck then output :: r.content else r.content
    let r := { r with pending := output, size := r.size + size, content := content }
    if missing ≠ 0 then .onward { r with stage := .stored missing isLast } []
    else if !isLast then .onward { r with stage := .blockHead [] } []
    else if r.hasToldSize then .onward { r with stage := r.afterLast } []
    else .corrupt

/-- Takes what the piece holds of a stored block. -/
def stepStored (r : Reader) (missing : Nat) (isLast : Bool) : Step :=
  if r.piece.isEmpty then .pause r []
  else
    let output := r.piece.take missing
    let size := output.length
    gather { r with piece := r.piece.drop size } output (missing - size) isLast

/-- Takes the byte of a block that repeats it. -/
def stepRepeating (r : Reader) (size : Nat) (isLast : Bool) : Step :=
  match r.piece with
  | [] => .pause r []
  | b :: piece => gather { r with piece := piece } (List.replicate size b) 0 isLast

/-- Takes a block that cannot be expanded, which shows only when it is complete. -/
def stepWritten (r : Reader) (missing : Nat) : Step :=
  let size := (r.piece.take missing).length
  if size < missing then
    .pause { r with piece := r.piece.drop size, stage := .written (missing - size) } []
  else .corrupt

/-- Compares the check value. -/
def stepCheck (r : Reader) (seen : List UInt8) : Step :=
  let (seen, r) := r.complete checkSize seen
  if seen.length < checkSize then .pause { r with stage := .check seen } []
  else if isCheckOf seen (joined r.content) then .onward { r with stage := .complete } []
  else .corrupt

/-- Gives what is in the ring.  When all of it has been given and the next block might not fit
behind it, the ring starts again, unless it is large enough for the whole output. -/
def giveUp (r : Reader) (room : Nat) : Step :=
  let output := r.pending.take room
  let given := r.given + output.length
  match r.pending.drop room with
  | [] =>
    let isWhole := r.header.size?.any (· ≤ r.room.ring)
    let given := if !isWhole && r.room.ring < given + r.header.maxBlockSize then 0 else given
    .onward { r with pending := [], given := given } output
  | pending => .pause { r with pending := pending, given := given } output

/-- Takes one step, which may give at most `room` bytes. -/
def step (r : Reader) (room : Nat) (isFresh : Bool) : Step :=
  if !r.pending.isEmpty then r.giveUp room
  else
    match r.stage with
    | .start seen => r.stepStart room isFresh seen
    | .skipping missing => r.stepSkipping missing
    | .blockHead seen => r.stepBlockHead seen
    | .stored missing isLast => r.stepStored missing isLast
    | .repeating size isLast => r.stepRepeating size isLast
    | .written missing => r.stepWritten missing
    | .check seen => r.stepCheck seen
    | .complete => .pause { r with stage := .start [], finished := true } []

/-! ### Deliveries -/

/-- Takes steps to the end of the run.  What has been given is kept in chunks, the latest
first.  Gives nothing at a fault. -/
def advance (isFresh : Bool) :
    Nat → Nat → List (List UInt8) → Reader → Option (List UInt8 × Reader)
  | 0, _, _, _ => none
  | steps + 1, room, given, r =>
    match r.step room isFresh with
    | .onward r more => advance isFresh steps (room - more.length) (more :: given) r
    | .pause r more => some (joined (more :: given), r)
    | .corrupt => none

/-- A run over the piece that meets a demand for `n` bytes. -/
def run (r : Reader) (n : Nat) : Option (List UInt8 × Reader) :=
  r.advance (r.stage = .start []) r.limit n []

/-- Takes the next piece. -/
def fetch (r : Reader) : Reader :=
  let (piece, intake) := r.intake.take pieceSize
  { r with intake := intake, piece := piece }

/-- Runs over pieces until one gives bytes. -/
def deliverFrom (n : Nat) : Nat → Reader → Delivery Reader
  | 0, _ => .ended .broken
  | pieces + 1, r =>
    let r := if r.piece.isEmpty then r.fetch else r
    if r.piece.isEmpty then .ended (if r.finished then .clean else .truncated)
    else
      match run { r with finished := false } n with
      | none => .ended .broken
      | some ([], r) => deliverFrom n pieces r
      | some (given, r) => .bytes given r

/-- Meets a demand for `n` bytes, first with what is left of the last run. -/
def deliver (n : Nat) (r : Reader) : Delivery Reader :=
  match run { r with piece := [] } n with
  | none => .ended .broken
  | some ([], r') => deliverFrom n r.limit { r' with piece := r.piece }
  | some (given, r') => .bytes given { r' with piece := r.piece }

end Reader

end ReservoirPlot.Zstd
