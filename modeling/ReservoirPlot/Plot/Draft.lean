/-
ReservoirPlot/Plot/Draft.lean

From a description of a plot to its bytes.  A draft names classes, codes and
instances by short texts and lists blocks with their values; `PlotDraft.bytes`
lays it out as a plot file.  A draft is written as it stands: the number of
values of an item need not be the number of codes of its class, and the integers
of the header need not fit the rest, so drafts also describe damaged files.
-/
import ReservoirPlot.Plot.Decoding

namespace ReservoirPlot

open Layout

/-- A block of a draft: values of some instances of a class at one timestep. -/
structure Block where
  className : String
  timestep : Binary32
  time : Binary32
  maxPerforations : Binary32
  items : List (String × List Binary32)
deriving DecidableEq, Repr

namespace Block

/-- A block without items; the timestep is stored as the nearest number. -/
def new (className : String) (timestep : Int32) (time : Binary32) : Block :=
  ⟨className, .ofInt timestep.toInt, time, .zero, []⟩

/-- The block with one more item. -/
def item (b : Block) (instanceName : String) (values : List Binary32) : Block :=
  { b with items := b.items ++ [(instanceName, values)] }

end Block

/-- The description of a plot file. -/
structure PlotDraft where
  unitTag : UnitTag
  /-- The integers of the header. -/
  fields : List Int32
  classes : List (String × List String)
  blocks : List Block
deriving DecidableEq, Repr

namespace PlotDraft

/-- A draft without classes and blocks. -/
def new (unitTag : UnitTag) : PlotDraft :=
  ⟨unitTag, [0, 1, 1, 1980, 10, 10, 3, 0], [], []⟩

/-- The draft with one more class; the header counts it. -/
def addClass (d : PlotDraft) (name : String) (codes : List String) : PlotDraft :=
  let classes := d.classes ++ [(name, codes)]
  { d with classes := classes, fields := d.fields.set 0 (Int32.ofNat classes.length) }

/-- The draft with one more block. -/
def addBlock (d : PlotDraft) (b : Block) : PlotDraft :=
  { d with blocks := d.blocks ++ [b] }

/-! ### Bytes -/

/-- A number of zero bytes. -/
def zeros (n : Nat) : List UInt8 :=
  List.replicate n 0

/-- The bytes of an integer. -/
def intBytes (n : Int32) : List UInt8 :=
  wordBytes n.toUInt32

/-- The bytes of a single-precision number. -/
def singleBytes (x : Binary32) : List UInt8 :=
  wordBytes x.bits

/-- The bytes of a name in a field of the given width. -/
def nameBytes (width : Nat) (name : String) : List UInt8 :=
  (Token.padded width name).bytes

/-- The version blocks, which name the file version, the simulator and its versions. -/
def versionText : String := "2.0   NEXUS 5000  0001  "

/-- The header of the file. -/
def headerBytes (d : PlotDraft) : List UInt8 :=
  zeros leadSize ++ typeTag.bytes ++ Utf8.encode versionText ++ d.unitTag.bytes
    ++ zeros headerPaddingSize ++ d.fields.flatMap intBytes

/-- The section of one class in the catalog. -/
def codesBytes (codes : List String) : List UInt8 :=
  Utf8.encode "TIME" ++ codes.flatMap (nameBytes 4) ++ zeros separatorSize

/-- The catalog of the file. -/
def catalogBytes (d : PlotDraft) : List UInt8 :=
  zeros separatorSize ++ d.classes.flatMap (fun c => nameBytes 8 c.1)
    ++ zeros separatorSize ++ d.classes.flatMap (fun c => intBytes (Int32.ofNat c.2.length))
    ++ zeros separatorSize ++ d.classes.flatMap (fun c => codesBytes c.2)

/-- One item of a block. -/
def itemBytes (item : String × List Binary32) : List UInt8 :=
  zeros separatorSize ++ nameBytes 8 item.1 ++ zeros itemPaddingSize
    ++ item.2.flatMap singleBytes

/-- The words at the head of a block; the number of items stands there twice. -/
def headWords (b : Block) : List Binary32 :=
  let count := Binary32.ofInt b.items.length
  [b.timestep, b.time, count, count, b.maxPerforations]

/-- One block of the file. -/
def blockBytes (b : Block) : List UInt8 :=
  nameBytes 8 b.className ++ zeros separatorSize ++ (headWords b).flatMap singleBytes
    ++ b.items.flatMap itemBytes ++ zeros separatorSize

/-- The file without the stop tag. -/
def unterminatedBytes (d : PlotDraft) : List UInt8 :=
  d.headerBytes ++ d.catalogBytes ++ d.blocks.flatMap blockBytes

/-- The file. -/
def bytes (d : PlotDraft) : List UInt8 :=
  d.unterminatedBytes ++ stopTag.bytes

/-- A small plot of the whole field: an oil rate and a water cut at one timestep. -/
def fieldSample : PlotDraft :=
  (new UnitSystem.metricBars.tag).addClass "FIELD" ["QOP", "WCUT"] |>.addBlock
    ((Block.new "FIELD" 1 .zero).item "NETWORK" [⟨0x41480000⟩, ⟨0x3E99999A⟩])

end PlotDraft

end ReservoirPlot
