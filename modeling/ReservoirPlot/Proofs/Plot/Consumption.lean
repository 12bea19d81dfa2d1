/-
ReservoirPlot/Proofs/Plot/Consumption.lean

Declared counts cannot outrun the bytes.  The numbers of classes, variables and items
come from the file and may say anything, but what is begun and what is held follows
the bytes that have been taken, not these numbers.  The moments of a reading are those
of `recordCourse` and `catalogCourse`; they lead to the result of `readRecords` and
`readCatalog`, which a reading has come to after no more stages than there are bytes,
but one.

When a reading succeeds, it has read the bytes of parts of the format, so where it ends
follows from their lengths.

Main result: `counts_within_bytes`.
-/
import Mathlib.Algebra.GroupWithZero.Nat
import ReservoirPlot.Proofs.Plot.CatalogCourse
import ReservoirPlot.Proofs.Plot.RecordCourse

namespace ReservoirPlot

open Layout Reading

/-! ### The lengths of parts -/

theorem ItemPart.length_bytes {width : Nat} (x : ItemPart width) :
    x.bytes.length = 80 + 4 * width := by
  simp only [ItemPart.bytes, List.length_append, Token.length_eq, length_flatMap_singles,
    x.length_values]

theorem BlockPart.length_bytes {catalog : Catalog} (x : BlockPart catalog) :
    x.bytes.length = 44 + x.items.length * (80 + 4 * x.codes.length) := by
  have hitems : (x.items.flatMap ItemPart.bytes).length
      = x.items.length * (80 + 4 * x.codes.length) := by
    rw [List.length_flatMap, List.map_congr_left fun item _ => item.length_bytes,
      List.map_const', List.sum_replicate_nat]
  have hwords : x.words.length = 5 := rfl
  simp only [BlockPart.bytes, BlockPart.body, List.length_append, Token.length_eq, hitems,
    length_flatMap_singles, hwords]
  omega

theorem ClassPart.length_codesBytes (x : ClassPart) :
    x.codesBytes.length = 12 + 4 * x.codes.length := by
  simp only [codesBytes, List.length_append, Token.length_eq, length_flatMap_bytes]
  omega

/-- The codes of classes take what their counts say. -/
theorem length_flatMap_codesBytes {classes : List ClassPart}
    (h : ∀ x ∈ classes, x.codes.length < 2 ^ 31) :
    (classes.flatMap ClassPart.codesBytes).length
      = 12 * classes.length + 4 * (classes.map fun x => x.count.toNat).sum := by
  induction classes with
  | nil => rfl
  | cons x classes ih =>
    obtain ⟨hx, hclasses⟩ := List.forall_mem_cons.mp h
    simp only [List.flatMap_cons, List.length_append, List.map_cons, List.sum_cons,
      List.length_cons, ih hclasses, x.length_codesBytes, x.toNat_count hx]
    omega

theorem CatalogPart.length_bytes (x : CatalogPart) : x.bytes.length
    = 24 + 24 * x.classes.length + 4 * (x.classes.map fun c => c.count.toNat).sum := by
  have hnames : (x.classes.flatMap fun c => c.name.bytes).length = 8 * x.classes.length := by
    rw [← List.flatMap_map ClassPart.name, length_flatMap_bytes, List.length_map]
  have hcounts : (x.classes.flatMap fun c => wordBytes c.count).length
      = 4 * x.classes.length := by
    rw [← List.flatMap_map ClassPart.count, length_flatMap_wordBytes, List.length_map]
  simp only [bytes, List.length_append, Token.length_eq, hnames, hcounts,
    length_flatMap_codesBytes x.length_codes_lt]
  omega

/-! ### What has been begun -/

/-- Whether an item has been begun and not been read to its end. -/
def RecordStage.openItems : RecordStage → Nat
  | .itemSeparator .. | .instanceName .. | .padding .. | .values .. => 1
  | _ => 0

namespace RecordState

/-- The blocks that have been begun, and before a class name has been read the one that may come. -/
def begunBlocks (x : RecordState) : Nat :=
  x.blocks + 1

/-- The items that have been begun, in all blocks. -/
def begunItems (x : RecordState) : Nat :=
  x.items + x.stage.openItems

theorem openItems_le (stage : RecordStage) : stage.openItems ≤ 1 := by
  cases stage <;> exact Nat.le_of_ble_eq_true rfl

/-- What has been spent on blocks and items bounds the number of these. -/
theorem begun_le {x : RecordState} {n : Nat} (h : x.spent ≤ n) :
    x.begunBlocks ≤ n / 44 + 1 ∧ x.begunItems ≤ n / 80 + 1 := by
  have hitems := openItems_le x.stage
  simp only [spent, begunBlocks, begunItems] at h ⊢
  omega

end RecordState

theorem Stream.Takes.length_le {s t : Stream} {bytes : List UInt8} (h : s.Takes bytes t) :
    bytes.length ≤ s.unread.length := by
  rw [h.unread, List.length_append]
  exact Nat.le_add_right ..

theorem RecordState.gathered_le_held (z : RecordState ⊕ List Sample) :
    4 * (gathered z).length ≤ held z := by
  rcases z with x | samples
  · simp only [gathered, held, Sum.elim_inl, spent]
    omega
  · exact Nat.le_refl _

/-- At every moment of the reading of the blocks, what is held is within the bytes taken. -/
theorem records_held_le {catalog : Catalog} {s t : Stream} {n : Nat}
    {z : RecordState ⊕ List Sample} (hs : s.AtHand)
    (h : (recordCourse catalog).upTo n .start s = .ok z t) :
    ∃ taken, s.Takes taken t ∧ RecordState.held z ≤ taken.length := by
  obtain ⟨taken, htakes, hheld⟩ := (pays_recordCourse catalog).held_le hs h
  have hstart : RecordState.held (.inl .start) = 0 := rfl
  rw [hstart, Nat.zero_add] at hheld
  exact ⟨taken, htakes, hheld⟩

/-- At every moment of the reading of a catalog, what is held is within the bytes taken. -/
theorem catalog_held_le {classCount : Int32} {s t : Stream} {n : Nat}
    {z : CatalogStage ⊕ Catalog} (hs : s.AtHand)
    (h : (catalogCourse classCount).upTo n .opening s = .ok z t) :
    ∃ taken, s.Takes taken t ∧ CatalogStage.held z ≤ taken.length := by
  obtain ⟨taken, htakes, hheld⟩ := (pays_catalogCourse classCount).held_le hs h
  have hopening : CatalogStage.held (.inl .opening) = 0 := rfl
  rw [hopening, Nat.zero_add] at hheld
  exact ⟨taken, htakes, hheld⟩

/-- At the first stage all blocks are still to be read. -/
theorem rest_start (catalog : Catalog) : RecordState.start.rest catalog = readRecords catalog :=
  id_map (blocksRest catalog)

/-! ### Where a reading ends -/

/-- The blocks and the stop tag end where their lengths say. -/
theorem offset_of_readRecords {catalog : Catalog} {s t : Stream} {samples : List Sample}
    (hs : s.AtHand) (h : readRecords catalog s = .ok samples t) :
    ∃ blocks : List (BlockPart catalog),
      s.Takes (blocks.flatMap BlockPart.bytes ++ stopTag.bytes) t
        ∧ samples = blocks.flatMap BlockPart.samples
        ∧ t.offset = s.offset + (8 + (blocks.map fun b =>
          44 + b.items.length * (80 + 4 * b.codes.length)).sum) := by
  obtain ⟨_, ⟨blocks, rfl, rfl⟩, htakes⟩ := (recognizes_readRecords catalog).sound hs h
  refine ⟨blocks, htakes, rfl, ?_⟩
  have hlength : (blocks.flatMap BlockPart.bytes).length = (blocks.map fun b =>
      44 + b.items.length * (80 + 4 * b.codes.length)).sum := by
    rw [List.length_flatMap, List.map_congr_left fun b _ => b.length_bytes]
  rw [htakes.offset, List.length_append, hlength, stopTag.length_eq, Nat.add_comm _ 8]

/-- The catalog ends where the number of classes and the counts say. -/
theorem offset_of_readCatalog {classCount : Int32} {s t : Stream} {catalog : Catalog}
    (hs : s.AtHand) (h : readCatalog classCount s = .ok catalog t) :
    ∃ part : CatalogPart, s.Takes part.bytes t ∧ catalog = part.catalog
      ∧ (part.classes.length : Int) = classCount.toInt
      ∧ t.offset = s.offset + (24 + 24 * part.classes.length
        + 4 * (part.classes.map fun c => c.count.toNat).sum) := by
  obtain ⟨_, ⟨part, rfl, rfl, hcount⟩, htakes⟩ := (recognizes_readCatalog classCount).sound hs h
  exact ⟨part, htakes, rfl, hcount, by rw [htakes.offset, part.length_bytes]⟩

/-- **Declared counts cannot outrun the bytes.** From a stream with all its bytes at hand, the
blocks and a catalog are read in at most one stage more than there are bytes.  At every moment no
more than one block in 44 bytes and one item in 80 has been begun, but for the last; for each sample
gathered, four bytes have been taken, and for names, counts and codes eight, four and four.  The
blocks end 8 bytes and their own lengths behind where they start.  A catalog ends 24 bytes behind,
24 for each class and 4 for each variable declared, also where a name is repeated.  The stages are
those of the two reads: each read is what its first stage leaves to be read, and what any stage
leaves is the read of this stage and then what the next one leaves. -/
theorem counts_within_bytes {s : Stream} (hs : s.AtHand) :
    (∀ catalog : Catalog,
      (RecordState.start.rest catalog = readRecords catalog
        ∧ (recordCourse catalog).Cuts (RecordState.rest catalog))
      ∧ (∃ n ≤ s.unread.length + 1,
        (recordCourse catalog).upTo n .start s = Course.ended (readRecords catalog s))
      ∧ (∀ (n : Nat) (x : RecordState) (t : Stream),
        (recordCourse catalog).upTo n .start s = .ok (.inl x) t →
          x.begunBlocks ≤ s.unread.length / 44 + 1 ∧ x.begunItems ≤ s.unread.length / 80 + 1)
      ∧ (∀ (n : Nat) (z : RecordState ⊕ List Sample) (t : Stream),
        (recordCourse catalog).upTo n .start s = .ok z t →
          ∃ taken, s.Takes taken t ∧ 4 * (RecordState.gathered z).length ≤ taken.length)
      ∧ ∀ (samples : List Sample) (t : Stream), readRecords catalog s = .ok samples t →
        ∃ blocks : List (BlockPart catalog),
          s.Takes (blocks.flatMap BlockPart.bytes ++ stopTag.bytes) t
            ∧ samples = blocks.flatMap BlockPart.samples
            ∧ t.offset = s.offset + (8 + (blocks.map fun b =>
              44 + b.items.length * (80 + 4 * b.codes.length)).sum))
    ∧ ∀ classCount : Int32,
      (CatalogStage.opening.rest classCount = readCatalog classCount
        ∧ (catalogCourse classCount).Cuts (CatalogStage.rest classCount))
      ∧ (∃ n ≤ s.unread.length + 1,
        (catalogCourse classCount).upTo n .opening s = Course.ended (readCatalog classCount s))
      ∧ (∀ (n : Nat) (z : CatalogStage ⊕ Catalog) (t : Stream),
        (catalogCourse classCount).upTo n .opening s = .ok z t →
          ∃ taken, s.Takes taken t ∧ 8 * (CatalogStage.holdingAt z).names
            + 4 * (CatalogStage.holdingAt z).counts + 4 * (CatalogStage.holdingAt z).codes
              ≤ taken.length)
      ∧ ∀ (catalog : Catalog) (t : Stream), readCatalog classCount s = .ok catalog t →
        ∃ part : CatalogPart, s.Takes part.bytes t ∧ catalog = part.catalog
          ∧ (part.classes.length : Int) = classCount.toInt
          ∧ t.offset = s.offset + (24 + 24 * part.classes.length
            + 4 * (part.classes.map fun c => c.count.toNat).sum) := by
  -- Nothing is held and nothing put aside at the first stage, so all bounds are in bytes alone.
  refine ⟨fun catalog => ⟨⟨rest_start catalog, cuts_recordCourse catalog⟩, ?_, ?_, ?_,
      fun _ _ => offset_of_readRecords hs⟩,
    fun classCount => ⟨⟨rfl, cuts_catalogCourse classCount⟩, ?_, fun _ _ _ => catalog_held_le hs,
      fun _ _ => offset_of_readCatalog hs⟩⟩
  · rw [← rest_start]
    exact (pays_recordCourse catalog).ends (cuts_recordCourse catalog) .start hs
  · intro n x t h
    obtain ⟨taken, htakes, hheld⟩ := records_held_le hs h
    exact RecordState.begun_le (Nat.le_trans hheld htakes.length_le)
  · intro n z t h
    obtain ⟨taken, htakes, hheld⟩ := records_held_le hs h
    exact ⟨taken, htakes, Nat.le_trans (RecordState.gathered_le_held z) hheld⟩
  · exact (pays_catalogCourse classCount).ends (cuts_catalogCourse classCount) .opening hs

/-- The catalog of a class without variables. -/
def emptyClass : Catalog := Catalog.empty.insert (.padded 8 "FIELD") []

/-- A block that declares as many items as can be declared and ends behind the first of them. -/
def overdeclared : Source := .ofBytes <|
  (Token.padded 8 "FIELD").bytes ++ List.replicate 8 0x20
    ++ [0, 0, 0x4F000000, 0, 0].flatMap wordBytes ++ List.replicate 80 0x20

theorem counts_within_bytes_of_overdeclared :
    (⟨0x4F000000⟩ : Binary32).toInt32 = 2 ^ 31 - 1
      ∧ (∃ n ≤ 117, (recordCourse emptyClass).upTo n .start (.of overdeclared)
        = Course.ended (readRecords emptyClass (.of overdeclared)))
      ∧ (∃ x t, (recordCourse emptyClass).upTo 7 .start (.of overdeclared) = .ok (.inl x) t
        ∧ x.begunItems = 2 ∧ x.begunItems ≤ 116 / 80 + 1)
      ∧ ∃ n ≤ 117, (catalogCourse (2 ^ 31 - 1)).upTo n .opening (.of overdeclared)
        = Course.ended (readCatalog (2 ^ 31 - 1) (.of overdeclared)) := by
  have hs : (Stream.of overdeclared).AtHand := Stream.atHand_of overdeclared
  obtain ⟨hrecords, hcatalog⟩ := counts_within_bytes hs
  obtain ⟨-, hends, hbegun, -, -⟩ := hrecords emptyClass
  obtain ⟨x, t, hmoment, hitems⟩ : ∃ x t,
      (recordCourse emptyClass).upTo 7 .start (.of overdeclared) = .ok (.inl x) t
        ∧ x.begunItems = 2 := ⟨_, _, rfl, rfl⟩
  exact ⟨by decide +kernel, hends, ⟨x, t, hmoment, hitems, (hbegun 7 x t hmoment).2⟩,
    (hcatalog (2 ^ 31 - 1)).2.1⟩

end ReservoirPlot
