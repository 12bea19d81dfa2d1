/-
ReservoirPlot/Proofs/Plot/Draft.lean

Decoding undoes drafting.  A coherent draft lays out the bytes of a plot file
(`exists_file`), so by what is known of such files it decodes, with anything
behind it, to the plot that it describes.

The parts of the file are made from those of the draft one by one: its header
(`headerPart`), its classes (`classPart`, `catalogPart`) and, as far as their
proofs allow, its blocks.  In two places a draft passes through arithmetic.  The
number of items is stored as a single-precision number, which is exact up to
`2 ^ 24` (`Binary32.toInt32_ofInt_of_le`).  The number of codes is stored as a
signed word: within its range the draft is a file, and when the word comes out
negative the draft is no file at all (`ne_bytes_file`).
-/
import ReservoirPlot.Plot.Draft
import ReservoirPlot.Proofs.Binary.WholeNumbers
import ReservoirPlot.Proofs.Plot.Catalog
import ReservoirPlot.Proofs.Plot.Decoding

namespace ReservoirPlot

open Layout

namespace PlotDraft

/-! ### What a draft describes -/

/-- The classes with their codes, by tokens. -/
def entries (d : PlotDraft) : List Catalog.Entry :=
  d.classes.map fun c => (Token.padded 8 c.1, c.2.map (Token.padded 4))

/-- The codes of a class: those of the last class of the name. -/
def codesOf (d : PlotDraft) (className : ClassName) : List VariableCode :=
  (Catalog.lastCodes? d.entries className).getD []

/-- The sample of one value of an item of a block. -/
def sample (b : Block) (instanceName : InstanceName) (code : VariableCode) (value : Binary32) :
    Sample where
  timestep := b.timestep.toInt32
  time := b.time
  maxPerforations := b.maxPerforations.toInt32
  className := Token.padded 8 b.className
  instanceName := instanceName
  code := code
  value := value

/-- The samples of an item, one for each of the codes. -/
def itemSamples (codes : List VariableCode) (b : Block) (item : String × List Binary32) :
    List Sample :=
  (codes.zip item.2).map fun cv => sample b (Token.padded 8 item.1) cv.1 cv.2

/-- The samples of all blocks, item after item and code after code. -/
def samples (d : PlotDraft) : List Sample :=
  d.blocks.flatMap fun b =>
    b.items.flatMap (itemSamples (d.codesOf (Token.padded 8 b.className)) b)

/-- A block that fits the classes of a draft. -/
structure Admits (d : PlotDraft) (b : Block) : Prop where
  className_ne : Token.padded 8 b.className ≠ stopTag
  className_mem : Token.padded 8 b.className ∈ d.entries.map Prod.fst
  length_items_le : b.items.length ≤ 2 ^ 24
  length_values : ∀ item ∈ b.items,
    item.2.length = (d.codesOf (Token.padded 8 b.className)).length

/-- The number of codes of every class fits the signed word that stores it. -/
def CountsFit (d : PlotDraft) : Prop :=
  ∀ c ∈ d.classes, c.2.length < 2 ^ 31

/-- A draft whose parts agree with each other, under a unit system. -/
structure Coherent (d : PlotDraft) (u : UnitSystem) : Prop where
  unitTag_eq : d.unitTag = u.tag
  length_fields : d.fields.length = 8
  fields_nonneg : ∀ x ∈ d.fields, 0 ≤ x
  classCount_eq : (d.fields.getD 0 0).toInt = d.classes.length
  admits : ∀ b ∈ d.blocks, d.Admits b

/-! ### Header -/

variable {d : PlotDraft} {u : UnitSystem}

theorem length_zeros (n : Nat) : (zeros n).length = n := List.length_replicate

/-- A field of zero bytes. -/
def blank (width : Nat) : Token width := ⟨zeros width, length_zeros width⟩

/-- A signed integer that is not negative is below half the range of its word. -/
theorem toNat_toUInt32_lt {x : Int32} (h : 0 ≤ x) : x.toUInt32.toNat < 2 ^ 31 := by
  rw [← Nat.not_le, ← ofUInt32_neg_iff]
  exact Int32.not_lt.mpr h

/-- The header of the file of a draft. -/
def headerPart (hd : d.Coherent u) : HeaderPart where
  lead := blank 4
  versions := ⟨Utf8.encode versionText, by decide +kernel⟩
  unitSystem := u
  padding := blank 794
  words := d.fields.map Int32.toUInt32
  length_words := (List.length_map _).trans hd.length_fields
  words_lt := List.forall_mem_map.mpr fun x hx => toNat_toUInt32_lt (hd.fields_nonneg x hx)

theorem bytes_headerPart (hd : d.Coherent u) : (headerPart hd).bytes = d.headerBytes := by
  rw [HeaderPart.bytes, headerBytes, hd.unitTag_eq, headerPart]
  simp only [List.flatMap_map]
  rfl

theorem header_headerPart (hd : d.Coherent u) :
    (headerPart hd).header = .ofFields u d.fields := by
  show Header.ofFields u ((d.fields.map Int32.toUInt32).map Int32.ofUInt32) = _
  rw [List.map_map]
  congr 1
  exact List.map_id _

/-- The header of a draft says how many classes there are. -/
theorem classCount_headerPart (hd : d.Coherent u) :
    (headerPart hd).classCount = d.classes.length := by
  have hheader := (headerPart hd).toInt_classCount
  rw [header_headerPart] at hheader
  exact Int.ofNat.inj (hheader.symm.trans hd.classCount_eq)

/-! ### Catalog -/

/-- A class of the file of a draft. -/
def classPart (c : String × List String) : ClassPart where
  name := Token.padded 8 c.1
  timeName := ⟨Utf8.encode "TIME", by decide +kernel⟩
  codes := c.2.map (Token.padded 4)
  separator := blank 8

/-- The catalog of the file of a draft. -/
def catalogPart (hcounts : d.CountsFit) : CatalogPart where
  first := blank 8
  second := blank 8
  third := blank 8
  classes := d.classes.map classPart
  length_codes_lt := List.forall_mem_map.mpr fun c hc => by
    show (c.2.map (Token.padded 4)).length < 2 ^ 31
    rw [List.length_map]
    exact hcounts c hc

theorem codesBytes_classPart (c : String × List String) :
    (classPart c).codesBytes = codesBytes c.2 := by
  rw [ClassPart.codesBytes, codesBytes, classPart]
  simp only [List.flatMap_map]
  rfl

theorem count_classPart (c : String × List String) :
    wordBytes (classPart c).count = intBytes (Int32.ofNat c.2.length) := by
  show wordBytes (UInt32.ofNat (c.2.map (Token.padded 4)).length) = _
  rw [List.length_map]
  rfl

theorem bytes_catalogPart (hcounts : d.CountsFit) :
    (catalogPart hcounts).bytes = d.catalogBytes := by
  rw [CatalogPart.bytes, catalogBytes, catalogPart]
  simp only [List.flatMap_map, codesBytes_classPart, count_classPart]
  rfl

theorem catalog_catalogPart (hcounts : d.CountsFit) :
    (catalogPart hcounts).catalog = .ofEntries d.entries := by
  rw [CatalogPart.catalog, catalogPart, entries, List.map_map]
  rfl

/-! ### Blocks -/

/-- Things that are laid out one by one are laid out in sequence, with what each means. -/
theorem exists_parts {σ τ α : Type} {bytesOf : σ → List UInt8} {valuesOf : σ → List α}
    {layOut : τ → List UInt8} {meaning : τ → List α} (xs : List τ)
    (h : ∀ x ∈ xs, ∃ y, bytesOf y = layOut x ∧ valuesOf y = meaning x) :
    ∃ ys : List σ, ys.length = xs.length ∧ ys.flatMap bytesOf = xs.flatMap layOut
      ∧ ys.flatMap valuesOf = xs.flatMap meaning := by
  induction xs with
  | nil => exact ⟨[], rfl, rfl, rfl⟩
  | cons x xs ih =>
    obtain ⟨hx, hxs⟩ := List.forall_mem_cons.mp h
    obtain ⟨y, hbytes, hvalues⟩ := hx
    obtain ⟨ys, hlen, hbytes', hvalues'⟩ := ih hxs
    refine ⟨y :: ys, ?_, ?_, ?_⟩
    · rw [List.length_cons, List.length_cons, hlen]
    · rw [List.flatMap_cons, List.flatMap_cons, hbytes, hbytes']
    · rw [List.flatMap_cons, List.flatMap_cons, hvalues, hvalues']

/-- Items with as many values as there are codes are items of a file. -/
theorem exists_itemParts (codes : List VariableCode) (b : Block)
    (h : ∀ item ∈ b.items, item.2.length = codes.length) :
    ∃ xs : List (ItemPart codes.length), xs.length = b.items.length
      ∧ xs.flatMap ItemPart.bytes = b.items.flatMap itemBytes
      ∧ xs.flatMap (fun x => (codes.zip x.values).map fun cv => sample b x.instanceName cv.1 cv.2)
        = b.items.flatMap (itemSamples codes b) :=
  exists_parts b.items fun item hitem =>
    ⟨⟨blank 8, Token.padded 8 item.1, blank 64, item.2, h item hitem⟩, rfl, rfl⟩

/-- The catalog of a draft has the codes of every class that a block may name. -/
theorem codes?_of_admits {b : Block} (hb : d.Admits b) :
    (Catalog.ofEntries d.entries).codes? (Token.padded 8 b.className)
      = some (d.codesOf (Token.padded 8 b.className)) := by
  have hsome : ((Catalog.ofEntries d.entries).codes? (Token.padded 8 b.className)).isSome := by
    rw [Catalog.codes?_isSome_iff, Catalog.classes_ofEntries, List.mem_eraseDups]
    exact hb.className_mem
  obtain ⟨codes, hcodes⟩ := Option.isSome_iff_exists.mp hsome
  rw [hcodes, codesOf, ← Catalog.codes?_ofEntries, hcodes]
  rfl

/-- A block that fits is a block of a file. -/
theorem exists_blockPart {catalog : Catalog} {b : Block} (hb : d.Admits b)
    (hcatalog : catalog = .ofEntries d.entries) :
    ∃ x : BlockPart catalog, x.bytes = blockBytes b ∧ x.samples
      = b.items.flatMap (itemSamples (d.codesOf (Token.padded 8 b.className)) b) := by
  obtain ⟨items, hlen, hbytes, hsamples⟩ := exists_itemParts _ b hb.length_values
  have hcount : (Binary32.ofInt b.items.length).toInt32.toInt = items.length := by
    rw [hlen]
    exact Binary32.toInt32_ofInt_of_le hb.length_items_le
  let x : BlockPart catalog := {
    className := Token.padded 8 b.className
    codes := d.codesOf (Token.padded 8 b.className)
    separator := blank 8
    timestep := b.timestep
    time := b.time
    itemCount := Binary32.ofInt b.items.length
    maxItems := Binary32.ofInt b.items.length
    maxPerforations := b.maxPerforations
    items := items
    close := blank 8
    className_ne := hb.className_ne
    codes_eq := hcatalog ▸ codes?_of_admits hb
    itemCount_eq := hcount }
  refine ⟨x, ?_, hsamples⟩
  rw [BlockPart.bytes, BlockPart.body, blockBytes, hbytes]
  simp only [List.append_assoc]
  rfl

/-! ### The whole file -/

/-- A coherent draft is laid out as a plot file. -/
theorem exists_file (hd : d.Coherent u) (hcounts : d.CountsFit) :
    ∃ f : PlotFile, f.bytes = d.bytes
      ∧ f.plot = ⟨.ofFields u d.fields, .ofEntries d.entries, d.samples⟩ := by
  obtain ⟨blocks, -, hbytes, hsamples⟩ :
      ∃ xs : List (BlockPart (catalogPart hcounts).catalog), xs.length = d.blocks.length
        ∧ xs.flatMap BlockPart.bytes = d.blocks.flatMap blockBytes
        ∧ xs.flatMap BlockPart.samples = d.samples :=
    exists_parts d.blocks fun b hb =>
      exists_blockPart (hd.admits b hb) (catalog_catalogPart hcounts)
  have hclasses : (catalogPart hcounts).classes.length = (headerPart hd).classCount :=
    (List.length_map _).trans (classCount_headerPart hd).symm
  refine ⟨⟨headerPart hd, catalogPart hcounts, blocks, hclasses⟩, ?_, ?_⟩
  · rw [PlotFile.bytes, hbytes, bytes_headerPart, bytes_catalogPart, bytes, unterminatedBytes]
  · rw [PlotFile.plot, hsamples, header_headerPart, catalog_catalogPart]

/-! ### Counts out of range -/

theorem flatMap_wordBytes_injective {words words' : List UInt32}
    (h : words.flatMap wordBytes = words'.flatMap wordBytes) : words = words' := by
  rw [← wordsOfBytes_flatMap words, h, wordsOfBytes_flatMap]

/-- Bytes begin with one header at most. -/
theorem words_eq_of_headers {x y : HeaderPart} {rest rest' : List UInt8}
    (h : x.bytes ++ rest = y.bytes ++ rest') : x.words = y.words ∧ rest = rest' := by
  have hlen : (x.words.flatMap wordBytes).length = (y.words.flatMap wordBytes).length := by
    rw [length_flatMap_wordBytes, length_flatMap_wordBytes, x.length_words, y.length_words]
  have hbytes : x.bytes.length = y.bytes.length := by
    simp only [HeaderPart.bytes, List.length_append, Token.length_eq, hlen]
  obtain ⟨hheader, hrest⟩ := List.append_inj h hbytes
  exact ⟨flatMap_wordBytes_injective (List.append_inj' hheader hlen).2, hrest⟩

/-- Bytes begin with one list of counts at most, if it is known how many these are. -/
theorem words_eq_of_catalogs {a b a' b' : Token 8} {names names' : List ClassName}
    {words words' : List UInt32} {rest rest' : List UInt8}
    (hnames : names.length = names'.length) (hwords : words.length = words'.length)
    (h : a.bytes ++ names.flatMap Token.bytes ++ b.bytes ++ words.flatMap wordBytes ++ rest
      = a'.bytes ++ names'.flatMap Token.bytes ++ b'.bytes ++ words'.flatMap wordBytes ++ rest') :
    words = words' := by
  have hlen : (words.flatMap wordBytes).length = (words'.flatMap wordBytes).length := by
    rw [length_flatMap_wordBytes, length_flatMap_wordBytes, hwords]
  have hfront := (List.append_inj h (by
    simp only [List.length_append, Token.length_eq, length_flatMap_bytes, hnames, hlen])).1
  exact flatMap_wordBytes_injective (List.append_inj' hfront hlen).2

theorem exists_catalogBytes_eq (d : PlotDraft) : ∃ rest, d.catalogBytes
    = (blank 8).bytes ++ (d.classes.map fun c => Token.padded 8 c.1).flatMap Token.bytes
      ++ (blank 8).bytes ++ (d.classes.map fun c => (Int32.ofNat c.2.length).toUInt32).flatMap
        wordBytes ++ rest := by
  refine ⟨zeros separatorSize ++ d.classes.flatMap (fun c => codesBytes c.2), ?_⟩
  rw [List.flatMap_map, List.flatMap_map, ← List.append_assoc]
  rfl

theorem exists_bytes_eq_of_catalogPart (x : CatalogPart) : ∃ rest, x.bytes
    = x.first.bytes ++ (x.classes.map ClassPart.name).flatMap Token.bytes
      ++ x.second.bytes ++ (x.classes.map ClassPart.count).flatMap wordBytes ++ rest := by
  refine ⟨x.third.bytes ++ x.classes.flatMap ClassPart.codesBytes, ?_⟩
  rw [List.flatMap_map, List.flatMap_map, ← List.append_assoc]
  rfl

/-- If the bytes of a draft begin with those of a file, the classes of the file have as many codes as
the words say in which the draft stores these numbers. -/
theorem counts_of_bytes_eq (hd : d.Coherent u) {f : PlotFile} {tail tail' : List UInt8}
    (h : d.bytes ++ tail = f.bytes ++ tail') :
    f.catalogPart.classes.map (·.codes.length) = d.classes.map (·.2.length % 2 ^ 32) := by
  rw [bytes, unterminatedBytes, ← bytes_headerPart hd, PlotFile.bytes] at h
  simp only [List.append_assoc] at h
  obtain ⟨hheader, hcatalog⟩ := words_eq_of_headers h
  have hclasses : d.classes.length = f.catalogPart.classes.length := by
    rw [f.length_classes, HeaderPart.classCount, ← hheader]
    exact (classCount_headerPart hd).symm
  -- The counts stand at the same place in both.
  obtain ⟨rest, hrest⟩ := exists_catalogBytes_eq d
  obtain ⟨rest', hrest'⟩ := exists_bytes_eq_of_catalogPart f.catalogPart
  rw [hrest, hrest', List.append_assoc _ rest, List.append_assoc _ rest'] at hcatalog
  have hwords : d.classes.map (fun c => (Int32.ofNat c.2.length).toUInt32)
      = f.catalogPart.classes.map ClassPart.count :=
    words_eq_of_catalogs (by rw [List.length_map, List.length_map, hclasses])
      (by rw [List.length_map, List.length_map, hclasses]) hcatalog
  calc f.catalogPart.classes.map (·.codes.length)
      = f.catalogPart.classes.map fun x => x.count.toNat := by
        refine List.map_congr_left fun x hx => ?_
        rw [ClassPart.toNat_count (f.catalogPart.length_codes_lt x hx)]
    _ = (f.catalogPart.classes.map ClassPart.count).map UInt32.toNat := by
        rw [List.map_map]
        rfl
    _ = d.classes.map (·.2.length % 2 ^ 32) := by
        rw [← hwords, List.map_map]
        rfl

/-- The bytes of a draft do not begin with those of a file if the number of codes of a class is
stored as a negative word. -/
theorem ne_bytes_file (hd : d.Coherent u) {c : String × List String} (hc : c ∈ d.classes)
    (hcount : 2 ^ 31 ≤ c.2.length % 2 ^ 32) (f : PlotFile) (tail tail' : List UInt8) :
    d.bytes ++ tail ≠ f.bytes ++ tail' := by
  intro h
  have hmem := List.mem_map_of_mem (f := (·.2.length % 2 ^ 32)) hc
  rw [← counts_of_bytes_eq hd h] at hmem
  obtain ⟨x, hx, hlength⟩ := List.mem_map.mp hmem
  have hlt := f.catalogPart.length_codes_lt x hx
  omega

/-- **Decoding undoes drafting.**  A coherent draft decodes, with anything behind it, to the plot
that it describes, if the numbers of codes fit the words that store them; if one of these words
comes out negative, the draft does not decode.  Whatever numbers of codes a draft has, if it decodes
it is read as a file whose classes have these numbers modulo `2 ^ 32`. -/
theorem decode_bytes_draft (hd : d.Coherent u) (tail : List UInt8) :
    (d.CountsFit → ∃ p, Plot.decode (.ofBytes (d.bytes ++ tail)) = .ok p
      ∧ p.header.unitSystem = u ∧ p.header.fields = d.fields
      ∧ p.catalog = .ofEntries d.entries
      ∧ p.catalog.classes = (d.entries.map Prod.fst).eraseDups
      ∧ (∀ name, p.catalog.codes? name = Catalog.lastCodes? d.entries name)
      ∧ p.samples = d.samples)
    ∧ ((∃ c ∈ d.classes, 2 ^ 31 ≤ c.2.length % 2 ^ 32) →
      ∀ p, Plot.decode (.ofBytes (d.bytes ++ tail)) ≠ .ok p)
    ∧ ∀ p, Plot.decode (.ofBytes (d.bytes ++ tail)) = .ok p →
      ∃ (f : PlotFile) (tail' : List UInt8), d.bytes ++ tail = f.bytes ++ tail' ∧ f.Means p
        ∧ f.catalogPart.classes.map (·.codes.length) = d.classes.map (·.2.length % 2 ^ 32) := by
  refine ⟨?_, ?_, ?_⟩
  · intro hcounts
    obtain ⟨f, hbytes, hplot⟩ := exists_file hd hcounts
    have hdecode := decode_bytes_file f tail
    rw [hbytes, hplot] at hdecode
    exact ⟨_, hdecode, rfl, Header.fields_ofFields u hd.length_fields, rfl,
      Catalog.classes_ofEntries d.entries, Catalog.codes?_ofEntries d.entries, rfl⟩
  · rintro ⟨c, hc, hcount⟩ p hdecode
    obtain ⟨f, tail', hunread, -⟩ := exists_file_of_decode hdecode
    exact ne_bytes_file hd hc hcount f tail tail' hunread
  · intro p hdecode
    obtain ⟨f, tail', hunread, rfl⟩ := exists_file_of_decode hdecode
    exact ⟨f, tail', hunread, f.means_plot, counts_of_bytes_eq hd hunread⟩

/-- A draft that names one class twice and another by a name that is cut.  Its second block has
a NaN for its time, and its items stand in the order of the later codes of their class. -/
def repeatedClass : PlotDraft :=
  (new UnitSystem.lab.tag).addClass "WELL" ["QOP"] |>.addClass "PRODUCERS" ["WCUTX", ""]
    |>.addClass "WELL" ["BHP", "QOP"]
    |>.addBlock ((Block.new "PRODUCER" (-3) .zero).item "NORTH" [⟨0x80000000⟩, ⟨0x7F800001⟩])
    |>.addBlock (((Block.new "WELL" 2 ⟨0x7FC00000⟩).item "P1" [.zero, ⟨0x3F800000⟩]).item "P2"
      [⟨0x41480000⟩, .zero])

theorem coherent_repeatedClass : repeatedClass.Coherent .lab where
  unitTag_eq := rfl
  length_fields := rfl
  fields_nonneg := by
    have hall : repeatedClass.fields.all (0 ≤ ·) := by decide +kernel
    intro x hx
    exact of_decide_eq_true (List.all_eq_true.mp hall x hx)
  classCount_eq := by decide +kernel
  admits := by
    have hadmits : ∀ b ∈ repeatedClass.blocks, Token.padded 8 b.className ≠ stopTag
        ∧ Token.padded 8 b.className ∈ repeatedClass.entries.map Prod.fst
        ∧ b.items.length ≤ 2 ^ 24 ∧ ∀ item ∈ b.items,
          item.2.length = (repeatedClass.codesOf (Token.padded 8 b.className)).length := by
      decide +kernel
    intro b hb
    obtain ⟨hne, hmem, hle, hvalues⟩ := hadmits b hb
    exact ⟨hne, hmem, hle, hvalues⟩

theorem decode_bytes_repeatedClass :
    repeatedClass.Coherent .lab ∧ repeatedClass.CountsFit
      ∧ ∃ p, Plot.decode (.ofBytes (repeatedClass.bytes ++ [0x53, 0x54])) = .ok p
        ∧ p.header.unitSystem = .lab ∧ p.header.fields = repeatedClass.fields
        ∧ p.catalog = .ofEntries repeatedClass.entries
        ∧ p.catalog.classes = (repeatedClass.entries.map Prod.fst).eraseDups
        ∧ (∀ name, p.catalog.codes? name = Catalog.lastCodes? repeatedClass.entries name)
        ∧ p.samples = repeatedClass.samples := by
  have hcounts : repeatedClass.CountsFit := by
    unfold CountsFit
    decide +kernel
  exact ⟨coherent_repeatedClass, hcounts,
    (decode_bytes_draft coherent_repeatedClass [0x53, 0x54]).1 hcounts⟩

end PlotDraft

end ReservoirPlot
