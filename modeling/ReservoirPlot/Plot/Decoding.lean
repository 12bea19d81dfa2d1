/-
ReservoirPlot/Plot/Decoding.lean

From bytes to a plot.  The header, the catalog and the records are read one
after the other from one stream, and the first fault ends the reading.

Counts in the file decide how much is read, so a damaged count asks for more
than there is.  No read reserves room for what a count promises: every loop ends
at the first read that falls short.  The blocks carry no count at all; their
loop ends because every block takes at least its class name from what can still
be read (`readRecords`).
-/
import ReservoirPlot.Plot.Basic
import ReservoirPlot.Plot.Layout
import ReservoirPlot.Plot.Stream

namespace ReservoirPlot

open Layout Reading

/-! ### Header -/

/-- Reads the type tag; until it is complete, every failure means the same. -/
def readTypeTag : Reading (Token 12) :=
  failingAs (.malformed .unverified) do
    skip leadSize "file prefix"
    readToken 12 "type tag"

/-- Passes over a number of version blocks. -/
def skipVersionBlocks : Nat → Reading Unit
  | 0 => pure ()
  | n + 1 => do
    skip versionBlockSize "version block"
    skipVersionBlocks n

/-- Reads the tag of the unit system. -/
def readUnitSystem : Reading UnitSystem := do
  let tag ← readToken 6 "unit system"
  match UnitSystem.ofTag? tag with
  | some u => return u
  | none => throw (.unrecognizedUnitSystem tag)

/-- Reads the header; none of its integers may be negative. -/
def readHeader : Reading Header := do
  let tag ← readTypeTag
  unless tag = typeTag do
    malformed (.wrongTypeTag tag)
  skipVersionBlocks versionBlockCount
  let unitSystem ← readUnitSystem
  skip headerPaddingSize "header padding"
  let fields ← readInts Header.fieldCount "header fields"
  match fields.find? (· < 0) with
  | some value => malformed (.negativeField value)
  | none =>
    let header := Header.ofFields unitSystem fields
    report (.header header)
    return header

/-! ### Catalog -/

/-- Reads a number of class names. -/
def readClassNames : Nat → Reading (List ClassName)
  | 0 => pure []
  | n + 1 => do
    let name ← readToken 8 "class name"
    let names ← readClassNames n
    return name :: names

/-- The counts as natural numbers, unless one of them is negative. -/
def checkCounts : List Int32 → Reading (List Nat)
  | [] => pure []
  | count :: counts => do
    if count < 0 then
      malformed (.negativeVariableCount count)
    let rest ← checkCounts counts
    return count.toNatClampNeg :: rest

/-- Bytes taken four at a time as variable codes; up to three at the end are left out. -/
def codesOfBytes : List UInt8 → List VariableCode
  | a :: b :: c :: d :: rest => ⟨[a, b, c, d], rfl⟩ :: codesOfBytes rest
  | _ => []

/-- Reads the codes of the classes, each with its count, into the catalog. -/
def readCodes : List (ClassName × Nat) → Catalog → Reading Catalog
  | [], catalog => pure catalog
  | (name, count) :: rest, catalog => do
    skip timeNameSize "time variable name"
    let bytes ← readBytes (4 * count) "variable codes"
    let codes := codesOfBytes bytes
    skip separatorSize "separator"
    report (.codes name codes.length)
    readCodes rest (catalog.insert name codes)

/-- Reads the catalog of a plot with the given number of classes. -/
def readCatalog (classCount : Int32) : Reading Catalog := do
  if classCount < 0 then
    malformed (.negativeClassCount classCount)
  let n := classCount.toNatClampNeg
  skip separatorSize "separator"
  let names ← readClassNames n
  skip separatorSize "separator"
  let words ← readInts n "variable counts"
  let counts ← checkCounts words
  skip separatorSize "separator"
  readCodes (names.zip counts) Catalog.empty

/-! ### Records -/

/-- What the head of a block says about all its samples, and the number of items. -/
structure BlockHead where
  timestep : Int32
  time : Binary32
  itemCount : Int32
  maxPerforations : Int32
deriving DecidableEq, Repr

/-- The head made of the words of a block; the fourth word is not used.  Whole numbers
are stored as single-precision ones. -/
def BlockHead.ofWords (words : List Binary32) : BlockHead where
  timestep := (words.getD 0 .zero).toInt32
  time := words.getD 1 .zero
  itemCount := (words.getD 2 .zero).toInt32
  maxPerforations := (words.getD 4 .zero).toInt32

/-- The samples of one item: one for each code, with the value in the same place. -/
def itemSamples (head : BlockHead) (className : ClassName) (instanceName : InstanceName)
    (codes : List VariableCode) (values : List Binary32) : List Sample :=
  List.zipWith (fun code value =>
    ⟨head.timestep, head.time, head.maxPerforations, className, instanceName, code, value⟩)
    codes values

/-- Reads a number of items of a block. -/
def readItems (head : BlockHead) (className : ClassName) (codes : List VariableCode) :
    Nat → Reading (List Sample)
  | 0 => pure []
  | n + 1 => do
    skip separatorSize "separator"
    let instanceName ← readToken 8 "instance name"
    skip itemPaddingSize "item padding"
    let values ← readSingles codes.length "values"
    let rest ← readItems head className codes n
    return itemSamples head className instanceName codes values ++ rest

/-- Finds the codes of the class whose name has just been read. -/
def lookUpCodes (catalog : Catalog) (className : ClassName) : Reading (List VariableCode) := do
  match catalog.codes? className with
  | some codes => return codes
  | none =>
    let s ← get
    malformed (.unknownClass className (s.offset - 8))

/-- Reads a block after its class name. -/
def readBlock (catalog : Catalog) (className : ClassName) : Reading (List Sample) := do
  let codes ← lookUpCodes catalog className
  skip separatorSize "separator"
  let words ← readSingles blockWordCount "block header"
  let head := BlockHead.ofWords words
  if head.itemCount < 0 then
    malformed (.negativeItemCount head.itemCount className)
  let samples ← readItems head className codes head.itemCount.toNatClampNeg
  skip separatorSize "separator"
  return samples

theorem consumes_readItems (head : BlockHead) (className : ClassName)
    (codes : List VariableCode) (n : Nat) : Consumes (readItems head className codes n) := by
  induction n with
  | zero => exact consumes_pure _
  | succ n ih =>
    exact consumes_bind (consumes_skip _ _) fun _ => consumes_bind (consumes_readToken _ _)
      fun _ => consumes_bind (consumes_skip _ _) fun _ =>
      consumes_bind (consumes_readSingles _ _) fun _ => consumes_bind ih fun _ =>
      consumes_pure _

theorem consumes_lookUpCodes (catalog : Catalog) (className : ClassName) :
    Consumes (lookUpCodes catalog className) := by
  unfold lookUpCodes
  split
  · exact consumes_pure _
  · intro s a s' h; cases h

theorem consumes_readBlock (catalog : Catalog) (className : ClassName) :
    Consumes (readBlock catalog className) := by
  refine consumes_bind (consumes_lookUpCodes _ _) fun _ => consumes_bind (consumes_skip _ _)
    fun _ => consumes_bind (consumes_readSingles _ _) fun words => ?_
  dsimp only
  split
  · exact consumes_bind (consumes_throw _) fun _ => consumes_bind (consumes_readItems _ _ _ _)
      fun _ => consumes_bind (consumes_skip _ _) fun _ => consumes_pure _
  · exact consumes_bind (consumes_readItems _ _ _ _) fun _ =>
      consumes_bind (consumes_skip _ _) fun _ => consumes_pure _

/-- A block with its class name takes at least one byte. -/
theorem remaining_lt_of_readBlock {catalog : Catalog} {className : ClassName} {field : String}
    {samples : List Sample} {s s' s'' : Stream} (hname : readToken 8 field s = .ok className s')
    (hblock : readBlock catalog className s' = .ok samples s'') :
    s''.remaining < s.remaining := by
  have h := remaining_of_readToken hname
  have hle := consumes_readBlock catalog className s' samples s'' hblock
  omega

/-- Reads blocks up to the stop tag; the samples keep the order of the file. -/
def readRecords (catalog : Catalog) (s : Stream) :
    EStateM.Result DecodeError Stream (List Sample) :=
  match hname : readToken 8 "class name" s with
  | .error e s' => .error e s'
  | .ok className s' =>
    if className = stopTag then
      .ok [] { s' with progress := .stop s'.offset :: s'.progress }
    else
      match hblock : readBlock catalog className s' with
      | .error e s'' => .error e s''
      | .ok samples s'' =>
        have : s''.remaining < s.remaining := remaining_lt_of_readBlock hname hblock
        match readRecords catalog s'' with
        | .error e t => .error e t
        | .ok rest t => .ok (samples ++ rest) t
termination_by s.remaining

/-! ### The whole file -/

/-- Reads a plot. -/
def readPlot : Reading Plot := do
  let header ← readHeader
  let catalog ← readCatalog header.classCount
  let samples ← readRecords catalog
  return ⟨header, catalog, samples⟩

/-- The plot that a source holds. -/
def Plot.decode (source : Source) : Except DecodeError Plot :=
  readPlot.outcome (.of source)

/-- What is recognised while a plot is read from a stream, in order. -/
def Stream.plotProgress (s : Stream) : List Progress :=
  (readPlot.after s).progress.reverse

end ReservoirPlot
