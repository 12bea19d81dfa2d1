/-
ReservoirPlot/Compression/Zstd/Block.lean

Blocks of a Zstandard frame.  A block is stored as it is or repeats one byte; a
block that is written in another way counts as a fault.

A frame that is at hand as a whole, and whose output is told to fit into what is
asked for, is expanded at once (`expandWhole`).
-/
import ReservoirPlot.Compression.XxHash
import ReservoirPlot.Compression.Zstd.FrameHeader

namespace ReservoirPlot.Zstd

/-- How a block is written. -/
inductive BlockKind
  | stored
  | repeating
  | written
deriving DecidableEq, Repr

/-- What the head of a block says. -/
structure BlockHead where
  isLast : Bool
  kind : BlockKind
  /-- The size of the output of the block, or of the block itself where it is written. -/
  size : Nat
deriving DecidableEq, Repr

/-- The size of the head of a block. -/
def blockHeadSize : Nat := 3

/-- The size of a check value. -/
def checkSize : Nat := 4

/-- The head of a block in its bytes. -/
def BlockHead.ofBytes? (bytes : List UInt8) : Option BlockHead :=
  let head := littleEndian bytes
  let isLast := head % 2 = 1
  match head / 2 % 4 with
  | 0 => some ⟨isLast, .stored, head / 8⟩
  | 1 => some ⟨isLast, .repeating, head / 8⟩
  | 2 => some ⟨isLast, .written, head / 8⟩
  | _ => none

/-- The number of bytes of the block behind its head. -/
def BlockHead.width (h : BlockHead) : Nat :=
  match h.kind with
  | .repeating => 1
  | _ => h.size

/-- Whether some bytes are a check value of others. -/
def isCheckOf (check content : List UInt8) : Bool :=
  littleEndian check = (XxHash64.ofBytes content).toNat % 0x100000000

/-! ### Frames at hand as a whole -/

/-- A block with its bytes. -/
structure Block where
  head : BlockHead
  bytes : List UInt8
deriving DecidableEq, Repr

/-- What a block stands for. -/
def Block.expand? (b : Block) : Option (List UInt8) :=
  match b.head.kind with
  | .stored => some b.bytes
  | .repeating => some (List.replicate b.head.size (b.bytes.headD 0))
  | .written => none

/-- The blocks of a frame and what stands behind them, if all of them are at hand. -/
def blocksAtHand : Nat → List UInt8 → Option (List Block × List UInt8)
  | 0, _ => none
  | turns + 1, bytes => do
    let head := bytes.take blockHeadSize
    let bytes := bytes.drop blockHeadSize
    if head.length < blockHeadSize then none
    let head ← BlockHead.ofBytes? head
    let content := bytes.take head.width
    let bytes := bytes.drop head.width
    if content.length < head.width then none
    if head.isLast then return ([⟨head, content⟩], bytes)
    let (blocks, bytes) ← blocksAtHand turns bytes
    return (⟨head, content⟩ :: blocks, bytes)

/-- A frame behind its start: its blocks, its check value, and what stands behind it. -/
def frameAtHand (h : FrameHeader) (bytes : List UInt8) :
    Option (List Block × List UInt8 × List UInt8) := do
  let (blocks, bytes) ← blocksAtHand (bytes.length + 1) bytes
  let check := bytes.take (if h.contentCheck then checkSize else 0)
  if h.contentCheck && check.length < checkSize then none
  return (blocks, check, bytes.drop check.length)

/-- The output of a frame at hand, or nothing if it breaks a rule. -/
def expandWhole (h : FrameHeader) (size : Nat) (blocks : List Block) (check : List UInt8) :
    Option (List UInt8) := do
  let contents ← blocks.mapM Block.expand?
  let content := contents.flatten
  if h.needsDictionary || content.length ≠ size then none
  if h.contentCheck && !isCheckOf check content then none
  return content

end ReservoirPlot.Zstd
