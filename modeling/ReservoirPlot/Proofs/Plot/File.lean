/-
ReservoirPlot/Proofs/Plot/File.lean

The format of a plot file, apart from any way of reading it.  A file is a tree of
parts.  Each part names the bytes that it may choose freely, carries as proofs
what the format demands of them, and says which bytes it stands for (`bytes`) and
what these mean:

    PlotFile
      HeaderPart      meaning: a header
      CatalogPart     meaning: a catalog
        ClassPart ..
      BlockPart ..    meaning: samples
        ItemPart ..

Two parts depend on what stands before them in the file: a block on the catalog,
which must know its class, and an item on the codes of that class, which decide
how many values it has.  `stop` closes the blocks, and anything may follow it.
-/
import Mathlib.Algebra.Group.Nat.Defs
import ReservoirPlot.Plot.Basic
import ReservoirPlot.Plot.Layout
import ReservoirPlot.Plot.Stream
import ReservoirPlot.Proofs.Plot.Catalog

namespace ReservoirPlot

open Layout

/-! ### Header -/

/-- The part of a file that holds its header. -/
structure HeaderPart where
  lead : Token 4
  versions : Token 24
  unitSystem : UnitSystem
  padding : Token 794
  words : List UInt32
  length_words : words.length = 8
  /-- As signed integers, the words are not negative. -/
  words_lt : ∀ w ∈ words, w.toNat < 2 ^ 31

namespace HeaderPart

def bytes (x : HeaderPart) : List UInt8 :=
  x.lead.bytes ++ typeTag.bytes ++ x.versions.bytes ++ x.unitSystem.tag.bytes
    ++ x.padding.bytes ++ x.words.flatMap wordBytes

/-- The words in file order are the integers of the header. -/
def header (x : HeaderPart) : Header :=
  .ofFields x.unitSystem (x.words.map Int32.ofUInt32)

/-- The first word is the number of classes. -/
def classCount (x : HeaderPart) : Nat :=
  (x.words.getD 0 0).toNat

end HeaderPart

/-! ### Catalog -/

/-- A class with its codes. -/
structure ClassPart where
  name : ClassName
  timeName : Token 4
  codes : List VariableCode
  separator : Token 8

namespace ClassPart

/-- The number of codes, as a word. -/
def count (x : ClassPart) : UInt32 :=
  UInt32.ofNat x.codes.length

/-- The codes between the name of the time variable and a separator. -/
def codesBytes (x : ClassPart) : List UInt8 :=
  x.timeName.bytes ++ x.codes.flatMap Token.bytes ++ x.separator.bytes

/-- What a class adds to the catalog. -/
def entry (x : ClassPart) : Catalog.Entry := (x.name, x.codes)

end ClassPart

/-- The part of a file that holds its catalog: the names of all classes, then the numbers of
their codes, then the codes. -/
structure CatalogPart where
  first : Token 8
  second : Token 8
  third : Token 8
  classes : List ClassPart
  length_codes_lt : ∀ x ∈ classes, x.codes.length < 2 ^ 31

namespace CatalogPart

def bytes (x : CatalogPart) : List UInt8 :=
  x.first.bytes ++ x.classes.flatMap (fun c => c.name.bytes)
    ++ x.second.bytes ++ x.classes.flatMap (fun c => wordBytes c.count)
    ++ x.third.bytes ++ x.classes.flatMap ClassPart.codesBytes

/-- The classes are entered in file order. -/
def catalog (x : CatalogPart) : Catalog :=
  .ofEntries (x.classes.map ClassPart.entry)

end CatalogPart

/-! ### Blocks -/

/-- An item of a block: an instance with so many values. -/
structure ItemPart (width : Nat) where
  separator : Token 8
  instanceName : InstanceName
  padding : Token 64
  values : List Binary32
  length_values : values.length = width

/-- The bytes of an item. -/
def ItemPart.bytes {width : Nat} (x : ItemPart width) : List UInt8 :=
  x.separator.bytes ++ x.instanceName.bytes ++ x.padding.bytes
    ++ x.values.flatMap fun v => wordBytes v.bits

/-- A block of a class that the catalog knows. -/
structure BlockPart (catalog : Catalog) where
  className : ClassName
  codes : List VariableCode
  separator : Token 8
  timestep : Binary32
  time : Binary32
  itemCount : Binary32
  maxItems : Binary32
  maxPerforations : Binary32
  items : List (ItemPart codes.length)
  close : Token 8
  className_ne : className ≠ stopTag
  codes_eq : catalog.codes? className = some codes
  /-- The number of items is stored as a single-precision number. -/
  itemCount_eq : itemCount.toInt32.toInt = items.length

namespace BlockPart

variable {catalog : Catalog}

/-- The words at the head of the block. -/
def words (x : BlockPart catalog) : List Binary32 :=
  [x.timestep, x.time, x.itemCount, x.maxItems, x.maxPerforations]

/-- What follows the class name. -/
def body (x : BlockPart catalog) : List UInt8 :=
  x.separator.bytes ++ x.words.flatMap (fun w => wordBytes w.bits)
    ++ x.items.flatMap ItemPart.bytes ++ x.close.bytes

def bytes (x : BlockPart catalog) : List UInt8 :=
  x.className.bytes ++ x.body

/-- The sample of one value of an item. -/
def sample (x : BlockPart catalog) (instanceName : InstanceName) (code : VariableCode)
    (value : Binary32) : Sample where
  timestep := x.timestep.toInt32
  time := x.time
  maxPerforations := x.maxPerforations.toInt32
  className := x.className
  instanceName := instanceName
  code := code
  value := value

/-- The samples of the block: item after item and code after code. -/
def samples (x : BlockPart catalog) : List Sample :=
  x.items.flatMap fun item =>
    (x.codes.zip item.values).map fun cv => x.sample item.instanceName cv.1 cv.2

end BlockPart

/-! ### The whole file -/

/-- A plot file, as far as its stop tag. -/
structure PlotFile where
  headerPart : HeaderPart
  catalogPart : CatalogPart
  blocks : List (BlockPart catalogPart.catalog)
  length_classes : catalogPart.classes.length = headerPart.classCount

namespace PlotFile

def bytes (f : PlotFile) : List UInt8 :=
  f.headerPart.bytes ++ f.catalogPart.bytes ++ f.blocks.flatMap BlockPart.bytes
    ++ stopTag.bytes

/-- What the file means; the samples keep the order of the file. -/
def plot (f : PlotFile) : Plot where
  header := f.headerPart.header
  catalog := f.catalogPart.catalog
  samples := f.blocks.flatMap BlockPart.samples

/-- That the file means a plot, said of each thing that can be read off the plot. -/
structure Means (f : PlotFile) (p : Plot) : Prop where
  unitSystem_eq : p.header.unitSystem = f.headerPart.unitSystem
  /-- The eight integers in file order. -/
  integers_eq : [p.header.classCount, p.header.day, p.header.month, p.header.year, p.header.nx,
    p.header.ny, p.header.nz, p.header.componentCount] = f.headerPart.words.map Int32.ofUInt32
  /-- Each class stands where it is first named. -/
  classes_eq : p.catalog.classes = (f.catalogPart.classes.map ClassPart.name).eraseDups
  /-- A class has the codes with which it is last named. -/
  codes?_eq : ∀ name, p.catalog.codes? name
    = Catalog.lastCodes? (f.catalogPart.classes.map fun c => (c.name, c.codes)) name
  samples_eq : p.samples = f.blocks.flatMap BlockPart.samples

theorem means_plot (f : PlotFile) : f.Means f.plot where
  unitSystem_eq := rfl
  integers_eq := by
    refine Header.fields_ofFields _ ?_
    rw [List.length_map, f.headerPart.length_words]
    rfl
  classes_eq := by
    refine (Catalog.classes_ofEntries _).trans ?_
    rw [List.map_map]
    rfl
  codes?_eq := Catalog.codes?_ofEntries _
  samples_eq := rfl

/-- A file means one plot. -/
theorem Means.unique {f : PlotFile} {p q : Plot} (hp : f.Means p) (hq : f.Means q) : p = q := by
  obtain ⟨header, catalog, samples⟩ := p
  obtain ⟨header', catalog', samples'⟩ := q
  have hheader : header = header' := by
    have hunits := hp.unitSystem_eq.trans hq.unitSystem_eq.symm
    have hintegers := hp.integers_eq.trans hq.integers_eq.symm
    cases header
    cases header'
    simp only [List.cons.injEq] at hintegers hunits
    obtain ⟨rfl, rfl, rfl, rfl, rfl, rfl, rfl, rfl, -⟩ := hintegers
    rw [hunits]
  have hcatalog : catalog = catalog' :=
    Catalog.ext_views (hp.classes_eq.trans hq.classes_eq.symm)
      fun name => (hp.codes?_eq name).trans (hq.codes?_eq name).symm
  have hsamples : samples = samples' := hp.samples_eq.trans hq.samples_eq.symm
  rw [hheader, hcatalog, hsamples]

end PlotFile

theorem padded_field_ne_stopTag : (.padded 8 "FIELD" : ClassName) ≠ stopTag := by decide

/-- The rates of oil and water of a field at one timestep. -/
def ratesFile : PlotFile where
  headerPart := ⟨.padded 4 "", .padded 24 "", .metricBars, .padded 794 "",
    [1, 1, 1, 1980, 10, 10, 3, 0], rfl, by simp⟩
  catalogPart := ⟨.padded 8 "", .padded 8 "", .padded 8 "",
    [⟨.padded 8 "FIELD", .padded 4 "TIME", [.padded 4 "QOP", .padded 4 "QWP"], .padded 8 ""⟩],
    by decide⟩
  blocks := [⟨.padded 8 "FIELD", [.padded 4 "QOP", .padded 4 "QWP"], .padded 8 "", ⟨0x3F800000⟩,
    .zero, ⟨0x3F800000⟩, ⟨0x3F800000⟩, .zero,
    [⟨.padded 8 "", .padded 8 "NETWORK", .padded 64 "", [⟨0x41480000⟩, ⟨0x40A00000⟩], rfl⟩],
    .padded 8 "", padded_field_ne_stopTag, by decide, by decide⟩]
  length_classes := rfl

end ReservoirPlot
