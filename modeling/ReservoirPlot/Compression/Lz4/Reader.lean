/-
ReservoirPlot/Compression/Lz4/Reader.lean

An LZ4 frame in the course of being read.  A frame is a start with a descriptor
and a sequence of blocks, each stored as it is or written as sequences; only the
first frame of a file is read.

The frame is taken in pieces, and each stage says how many bytes it would like
to have next (`Step.waiting`); the greatest wish since the last piece is the size
of the next one.  A demand is met from one piece as far as it goes, so a fault
that stands in the same piece as the bytes in front of it takes them with it.
A frame needs no end: where the bytes stop, the reading stops.
-/
import ReservoirPlot.Compression.Intake
import ReservoirPlot.Compression.Lz4.Block
import ReservoirPlot.Compression.Lz4.Descriptor

namespace ReservoirPlot.Lz4

/-! ### Stages -/

/-- Where in a frame the reading is.  Bytes that were seen are kept until there are enough. -/
inductive Stage
  | start (seen : List UInt8)
  | blockHead (seen : List UInt8)
  /-- In a stored block, of which `content` has been given, the latest bytes first. -/
  | stored (missing : Nat) (content : List (List UInt8))
  | storedCheck (content : List (List UInt8)) (seen : List UInt8)
  /-- In a written block and the check value behind it. -/
  | written (missing : Nat) (seen : List (List UInt8))
  /-- Behind a written block of which not everything has been given. -/
  | giving (pending : List UInt8)
  | closing (seen : List UInt8)
deriving DecidableEq, Repr

/-- A frame in the course of being read. -/
structure Reader where
  intake : Intake
  /-- What is left of the piece taken last. -/
  piece : List UInt8
  /-- The size of the next piece; zero behind the frame. -/
  wanted : Nat
  stage : Stage
  descriptor : Descriptor
  /-- What the frame has held so far, the latest bytes first. -/
  content : List (List UInt8)
  size : Nat
  /-- More steps than can be taken. -/
  limit : Nat
deriving DecidableEq, Repr

/-- What comes of one step, in each case with the bytes that it gives. -/
inductive Step
  | onward (r : Reader) (given : List UInt8)
  /-- The stage cannot be completed yet; it would like to have `wish` bytes next. -/
  | waiting (r : Reader) (given : List UInt8) (wish : Nat)
  /-- Nothing more belongs to the frame. -/
  | finished (r : Reader)
  | corrupt

/-- How far back repetitions reach in a frame with dependent blocks. -/
def historySize : Nat := 65536

/-- The end of what chunks hold, the latest of which comes first: at least `n` bytes, if there
are so many. -/
def lastOf (n : Nat) : List (List UInt8) → List UInt8 → List UInt8
  | [], known => known
  | chunk :: chunks, known =>
    if n ≤ chunk.length then chunk ++ known else lastOf (n - chunk.length) chunks (chunk ++ known)

namespace Reader

/-- The size of the first piece: a start with nothing optional and the head of a block. -/
def firstPieceSize : Nat := 11

/-- The greatest size of a piece. -/
def maxPieceSize : Nat := 32768

/-- The size of the head of a block. -/
def headSize : Nat := 4

/-- The size of a check value. -/
def checkSize : Nat := 4

/-- A reader at the start of some bytes. -/
def ofIntake (intake : Intake) : Reader where
  intake := intake
  piece := []
  wanted := firstPieceSize
  stage := .start []
  descriptor := ⟨true, false, 0, false, 0⟩
  content := []
  size := 0
  limit := 4 * (intake.unread.length + 2)

/-- What has been seen, completed to `n` bytes from the piece as far as it goes. -/
def complete (r : Reader) (n : Nat) (seen : List UInt8) : List UInt8 × Reader :=
  let missing := n - seen.length
  (seen ++ r.piece.take missing, { r with piece := r.piece.drop missing })

/-! ### Steps -/

/-- Completes the start.  A frame that is to be passed over has a mark of its own; as nothing
is read behind the first frame, any other mark counts as a fault. -/
def stepStart (r : Reader) (seen : List UInt8) : Step :=
  let size :=
    if seen.length < Descriptor.leastSize then Descriptor.leastSize
    else Descriptor.startSize seen
  let (seen, r) := r.complete size seen
  let r := { r with stage := .start seen }
  if seen.length < size then .waiting r [] (size - seen.length + headSize)
  else if size < Descriptor.startSize seen then .onward r []
  else
    match Descriptor.ofStart? seen with
    | none => .corrupt
    | some descriptor => .onward { r with descriptor := descriptor, stage := .blockHead [] } []

/-- The bit of a block's size that says that the block is stored. -/
def storedBit : Nat := 0x80000000

/-- Completes the head of a block; one of zeros is the mark behind the last block. -/
def stepBlockHead (r : Reader) (room : Nat) (seen : List UInt8) : Step :=
  let (seen, r) := r.complete headSize seen
  if seen.length < headSize then
    .waiting { r with stage := .blockHead seen } [] (headSize - seen.length)
  else
    let head := littleEndian seen
    let size := head % storedBit
    if head = 0 then .onward { r with stage := .closing [] } []
    else if r.descriptor.maxBlockSize < size then .corrupt
    else if head ≠ size then .onward { r with stage := .stored size [] } []
    else
      let size := size + r.descriptor.checkSize
      let r := { r with stage := .written size [] }
      if room = 0 || r.piece.isEmpty then .waiting r [] (headSize + size) else .onward r []

/-- Gives bytes of a stored block. -/
def stepStored (r : Reader) (room missing : Nat) (content : List (List UInt8)) : Step :=
  let given := r.piece.take (min missing room)
  let size := given.length
  let content := given :: content
  let r := { r with
    piece := r.piece.drop size, content := given :: r.content, size := r.size + size }
  if size < missing then
    let missing := missing - size
    .waiting { r with stage := .stored missing content } given
      (missing + r.descriptor.checkSize + headSize)
  else if r.descriptor.blockCheck then .onward { r with stage := .storedCheck content [] } given
  else .onward { r with stage := .blockHead [] } given

/-- Compares the check value behind a stored block. -/
def stepStoredCheck (r : Reader) (content : List (List UInt8)) (seen : List UInt8) : Step :=
  let (seen, r) := r.complete checkSize seen
  if seen.length < checkSize then .waiting { r with stage := .storedCheck content seen } [] 1
  else if isCheckOf seen (joined content) then .onward { r with stage := .blockHead [] } []
  else .corrupt

/-- What a written block stands for. -/
def expanded (r : Reader) (block : List UInt8) : Option (List UInt8) :=
  let size := block.length - r.descriptor.checkSize
  let written := block.take size
  if r.descriptor.blockCheck && !isCheckOf (block.drop size) written then none
  else
    let history := if r.descriptor.independent then [] else lastOf historySize r.content []
    expandBlock r.descriptor.maxBlockSize history written

/-- Completes a written block and expands it. -/
def stepWritten (r : Reader) (missing : Nat) (seen : List (List UInt8)) : Step :=
  let taken := r.piece.take missing
  let size := taken.length
  let seen := taken :: seen
  let r := { r with piece := r.piece.drop size }
  if size < missing then
    let missing := missing - size
    .waiting { r with stage := .written missing seen } []
      (missing + r.descriptor.checkSize + headSize)
  else
    match r.expanded (joined seen) with
    | none => .corrupt
    | some content =>
      .onward { r with
        stage := .giving content, content := content :: r.content
        size := r.size + content.length } []

/-- Gives bytes of a written block. -/
def stepGiving (r : Reader) (room : Nat) (pending : List UInt8) : Step :=
  let given := pending.take room
  match pending.drop room with
  | [] => .onward { r with stage := .blockHead [] } given
  | pending => .waiting { r with stage := .giving pending } given headSize

/-- Closes the frame: its size and its check value have to be those of what it held. -/
def stepClosing (r : Reader) (seen : List UInt8) : Step :=
  if r.descriptor.size ≠ 0 && r.descriptor.size ≠ r.size then .corrupt
  else if !r.descriptor.contentCheck then .finished r
  else
    let (seen, r) := r.complete checkSize seen
    if seen.length < checkSize then
      .waiting { r with stage := .closing seen } [] (checkSize - seen.length)
    else if isCheckOf seen (joined r.content) then .finished r
    else .corrupt

/-- Takes one step, which may give at most `room` bytes. -/
def step (r : Reader) (room : Nat) : Step :=
  match r.stage with
  | .start seen => r.stepStart seen
  | .blockHead seen => r.stepBlockHead room seen
  | .stored missing content => r.stepStored room missing content
  | .storedCheck content seen => r.stepStoredCheck content seen
  | .written missing seen => r.stepWritten missing seen
  | .giving pending => r.stepGiving room pending
  | .closing seen => r.stepClosing seen

/-! ### Deliveries -/

/-- Takes steps until the piece or the room is used up, or nothing more is to come.  What has
been given is kept in chunks, the latest first.  Gives nothing at a fault. -/
def advance : Nat → Nat → List (List UInt8) → Reader → Option (List UInt8 × Reader)
  | 0, _, _, _ => none
  | steps + 1, room, given, r =>
    match r.step room with
    | .onward r more => advance steps (room - more.length) (more :: given) r
    | .waiting r more wish =>
      let r := { r with wanted := max r.wanted wish }
      let room := room - more.length
      let given := more :: given
      if room = 0 || r.piece.isEmpty then some (joined given, r)
      else advance steps room given r
    | .finished r => some (joined given, { r with wanted := 0 })
    | .corrupt => none

/-- Takes the next piece. -/
def fetch (r : Reader) : Reader :=
  let (piece, intake) := r.intake.take (min maxPieceSize r.wanted)
  { r with intake := intake, piece := piece, wanted := r.wanted - piece.length }

/-- Takes pieces until one gives bytes.  Behind the last piece only what is left of a block can
be given. -/
def deliverFrom (n : Nat) : Nat → Reader → Delivery Reader
  | 0, _ => .ended .broken
  | pieces + 1, r =>
    let r := if r.piece.isEmpty then r.fetch else r
    let isLast := r.piece.isEmpty
    match r.advance r.limit n [] with
    | none => .ended .broken
    | some (given, r) =>
      if given.isEmpty && !isLast && r.wanted ≠ 0 then deliverFrom n pieces r
      else .ofGiven given r

/-- Meets a demand for `n` bytes. -/
def deliver (n : Nat) (r : Reader) : Delivery Reader :=
  if r.wanted = 0 then .ended .clean else deliverFrom n r.limit r

end Reader

end ReservoirPlot.Lz4
