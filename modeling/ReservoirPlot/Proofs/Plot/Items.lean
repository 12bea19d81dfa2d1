/-
ReservoirPlot/Proofs/Plot/Items.lean

The samples of a decoded plot, item by item.  A block gives its samples item after
item, and each item gives one for every code that the catalog has for its class.
A `DecodedItem` is an item together with what its block says about it, so the
samples of any number of blocks are those of a list of items
(`BlockPart.samples_eq_flatMap`).

All samples of an item have one timestep, class and instance, its key.  So to ask
for the samples of a key is to ask for the items of the key
(`filter_key_flatMap`), however the blocks are cut, repeated or rounded to the
same timestep.

Main result: `samples_in_runs`.
-/
import Mathlib.Data.List.Forall2
import ReservoirPlot.Proofs.Plot.Decoding

namespace ReservoirPlot

open Layout Reading

/-! ### Items and keys -/

/-- A timestep, a class and an instance. -/
structure SampleKey where
  timestep : Int32
  className : ClassName
  instanceName : InstanceName
deriving DecidableEq

def Sample.key (s : Sample) : SampleKey :=
  ⟨s.timestep, s.className, s.instanceName⟩

/-- An item with what its block says about it.  The catalog knows its class, and it has a value
for each code of the class. -/
structure DecodedItem (catalog : Catalog) where
  timestep : Int32
  time : Binary32
  maxPerforations : Int32
  className : ClassName
  instanceName : InstanceName
  codes : List VariableCode
  values : List Binary32
  codes_eq : catalog.codes? className = some codes
  length_values : values.length = codes.length

/-- The samples of an item: the codes of its class in the order of the catalog, each with the
value in the same place, and all under the time and the perforations of its block. -/
structure DecodedItem.IsRun {catalog : Catalog} (codes : List VariableCode)
    (x : DecodedItem catalog) (run : List Sample) : Prop where
  codes_eq : run.map (·.code) = codes
  values_eq : run.map (·.value) = x.values
  time_eq : ∀ s ∈ run, s.time = x.time
  maxPerforations_eq : ∀ s ∈ run, s.maxPerforations = x.maxPerforations

namespace DecodedItem

variable {catalog : Catalog}

def key (x : DecodedItem catalog) : SampleKey :=
  ⟨x.timestep, x.className, x.instanceName⟩

/-- The samples of an item, one for each code. -/
def samples (x : DecodedItem catalog) : List Sample :=
  (x.codes.zip x.values).map fun cv =>
    ⟨x.timestep, x.time, x.maxPerforations, x.className, x.instanceName, cv.1, cv.2⟩

theorem isRun_samples (x : DecodedItem catalog) : IsRun x.codes x x.samples where
  codes_eq := by
    rw [samples, List.map_map]
    exact List.map_fst_zip (Nat.le_of_eq x.length_values.symm)
  values_eq := by
    rw [samples, List.map_map]
    exact List.map_snd_zip (Nat.le_of_eq x.length_values)
  time_eq := by
    intro s hs
    obtain ⟨cv, -, rfl⟩ := List.mem_map.mp hs
    rfl
  maxPerforations_eq := by
    intro s hs
    obtain ⟨cv, -, rfl⟩ := List.mem_map.mp hs
    rfl

theorem length_samples (x : DecodedItem catalog) : x.samples.length = x.codes.length := by
  rw [← List.length_map (f := Sample.code), x.isRun_samples.codes_eq]

theorem key_of_mem_samples {x : DecodedItem catalog} {s : Sample} (h : s ∈ x.samples) :
    s.key = x.key := by
  obtain ⟨cv, -, rfl⟩ := List.mem_map.mp h
  rfl

theorem code_mem_of_mem_samples {x : DecodedItem catalog} {s : Sample} (h : s ∈ x.samples) :
    s.code ∈ x.codes := by
  rw [← x.isRun_samples.codes_eq]
  exact List.mem_map_of_mem h

/-- Of an item, either all samples have a key or none has. -/
theorem filter_key_samples (x : DecodedItem catalog) (k : SampleKey) :
    x.samples.filter (·.key = k) = if x.key = k then x.samples else [] := by
  split
  · next hk =>
    rw [List.filter_eq_self]
    intro s hs
    exact decide_eq_true ((key_of_mem_samples hs).trans hk)
  · next hk =>
    rw [List.filter_eq_nil_iff]
    intro s hs h
    exact hk ((key_of_mem_samples hs).symm.trans (of_decide_eq_true h))

end DecodedItem

/-! ### Samples of a key -/

/-- The samples of a key are those of the items of the key. -/
theorem filter_key_flatMap {catalog : Catalog} (items : List (DecodedItem catalog))
    (k : SampleKey) : (items.flatMap DecodedItem.samples).filter (·.key = k)
      = (items.filter (·.key = k)).flatMap DecodedItem.samples := by
  induction items with
  | nil => rfl
  | cons x items ih =>
    rw [List.flatMap_cons, List.filter_append, x.filter_key_samples, ih]
    by_cases hk : x.key = k
    · rw [if_pos hk, List.filter_cons_of_pos (by simpa using hk), List.flatMap_cons]
    · rw [if_neg hk, List.filter_cons_of_neg (by simpa using hk), List.nil_append]

/-- Lists of one length together have that length as often as there are lists. -/
theorem length_flatten_of_forall {α : Type} {n : Nat} {runs : List (List α)}
    (h : ∀ run ∈ runs, run.length = n) : runs.flatten.length = runs.length * n := by
  rw [List.length_flatten, List.eq_replicate_of_mem (List.forall_mem_map.mpr h),
    List.sum_replicate_nat, List.length_map]

/-- The samples of every key that occurs are divided into runs, one for each item of the key, and
so there are as many of them as the runs have codes together. -/
def InRuns (catalog : Catalog) (items : List (DecodedItem catalog)) (samples : List Sample) :
    Prop :=
  ∀ k ∈ samples.map Sample.key, ∃ codes runs,
    catalog.codes? k.className = some codes
    ∧ List.Forall₂ (DecodedItem.IsRun codes) (items.filter (·.key = k)) runs
    ∧ 1 ≤ runs.length
    ∧ samples.filter (·.key = k) = runs.flatten
    ∧ (samples.filter (·.key = k)).length = runs.length * codes.length

/-- The samples of some items are in runs. -/
theorem inRuns_flatMap {catalog : Catalog} (items : List (DecodedItem catalog)) :
    InRuns catalog items (items.flatMap DecodedItem.samples) := by
  intro k hk
  obtain ⟨s, hs, rfl⟩ := List.mem_map.mp hk
  obtain ⟨x, hx, hsx⟩ := List.mem_flatMap.mp hs
  have hkey := DecodedItem.key_of_mem_samples hsx
  -- Items of one key have one class, and so the codes of `x`.
  have hcodes : ∀ y ∈ items.filter (·.key = s.key), y.codes = x.codes := by
    intro y hy
    have hclass : y.className = x.className :=
      congrArg SampleKey.className ((of_decide_eq_true (List.mem_filter.mp hy).2).trans hkey)
    have hy := y.codes_eq
    rw [hclass, x.codes_eq] at hy
    exact (Option.some.inj hy).symm
  have hmem : x ∈ items.filter (·.key = s.key) :=
    List.mem_filter.mpr ⟨hx, decide_eq_true hkey.symm⟩
  refine ⟨x.codes, (items.filter (·.key = s.key)).map DecodedItem.samples, ?_, ?_, ?_, ?_, ?_⟩
  · rw [hkey]
    exact x.codes_eq
  · rw [List.forall₂_map_right_iff, List.forall₂_same]
    intro y hy
    rw [← hcodes y hy]
    exact y.isRun_samples
  · rw [List.length_map]
    exact List.length_pos_of_mem hmem
  · rw [filter_key_flatMap, List.flatMap_def]
  · rw [filter_key_flatMap, List.flatMap_def]
    apply length_flatten_of_forall
    intro run hrun
    obtain ⟨y, hy, rfl⟩ := List.mem_map.mp hrun
    rw [y.length_samples, hcodes y hy]

/-! ### Blocks and files -/

/-- The items of a block. -/
def BlockPart.decodedItems {catalog : Catalog} (x : BlockPart catalog) :
    List (DecodedItem catalog) :=
  x.items.map fun item => ⟨x.timestep.toInt32, x.time, x.maxPerforations.toInt32, x.className,
    item.instanceName, x.codes, item.values, x.codes_eq, item.length_values⟩

theorem BlockPart.samples_eq_flatMap {catalog : Catalog} (x : BlockPart catalog) :
    x.samples = x.decodedItems.flatMap DecodedItem.samples := by
  rw [decodedItems, List.flatMap_map]
  rfl

theorem flatMap_samples_blocks {catalog : Catalog} (blocks : List (BlockPart catalog)) :
    blocks.flatMap BlockPart.samples
      = (blocks.flatMap BlockPart.decodedItems).flatMap DecodedItem.samples := by
  rw [List.flatMap_assoc]
  exact List.flatMap_congr fun x _ => x.samples_eq_flatMap

/-- The items of a file, block after block. -/
def PlotFile.decodedItems (f : PlotFile) : List (DecodedItem f.plot.catalog) :=
  f.blocks.flatMap BlockPart.decodedItems

theorem PlotFile.samples_plot (f : PlotFile) :
    f.plot.samples = f.decodedItems.flatMap DecodedItem.samples :=
  flatMap_samples_blocks f.blocks

/-- The catalog of a decoded plot has the code of every sample among those of its class. -/
theorem Plot.exists_codes_of_decode {bytes : List UInt8} {p : Plot}
    (h : Plot.decode (.ofBytes bytes) = .ok p) {s : Sample} (hs : s ∈ p.samples) :
    ∃ codes, p.catalog.codes? s.className = some codes ∧ s.code ∈ codes := by
  obtain ⟨f, -, -, rfl⟩ := exists_file_of_decode h
  rw [f.samples_plot] at hs
  obtain ⟨x, -, hsx⟩ := List.mem_flatMap.mp hs
  have hclass : s.className = x.className :=
    congrArg SampleKey.className (DecodedItem.key_of_mem_samples hsx)
  exact ⟨x.codes, hclass ▸ x.codes_eq, DecodedItem.code_mem_of_mem_samples hsx⟩

/-- **Every item has one sample for each code of its class.**  In a decoded plot, and in records
read under any catalog, the class of each sample is in the catalog, and the samples of a timestep,
a class and an instance are runs of the codes of the class, one for each item that was decoded. -/
theorem samples_in_runs :
    (∀ bytes p, Plot.decode (.ofBytes bytes) = .ok p →
      ∃ (f : PlotFile) (tail : List UInt8), bytes = f.bytes ++ tail ∧ p = f.plot
        ∧ InRuns f.plot.catalog f.decodedItems p.samples)
    ∧ ∀ (catalog : Catalog) (s t : Stream) (samples : List Sample), s.AtHand →
      readRecords catalog s = .ok samples t → ∃ blocks : List (BlockPart catalog),
        s.unread = blocks.flatMap BlockPart.bytes ++ stopTag.bytes ++ t.unread
        ∧ InRuns catalog (blocks.flatMap BlockPart.decodedItems) samples := by
  constructor
  · intro bytes p h
    obtain ⟨f, tail, hbytes, rfl⟩ := exists_file_of_decode h
    refine ⟨f, tail, hbytes, rfl, ?_⟩
    rw [f.samples_plot]
    exact inRuns_flatMap _
  · intro catalog s t samples hs h
    -- No file is around these records, but soundness of the read gives the blocks it has taken.
    obtain ⟨_, ⟨blocks, rfl, rfl⟩, htakes⟩ := (recognizes_readRecords catalog).sound hs h
    refine ⟨blocks, htakes.unread, ?_⟩
    show InRuns catalog _ (blocks.flatMap BlockPart.samples)
    rw [flatMap_samples_blocks]
    exact inRuns_flatMap _

/-- An item of a well, with a rate of oil and a water cut. -/
def wellItem (instanceName : String) (rate cut : UInt32) : ItemPart 2 :=
  ⟨.padded 8 "", .padded 8 instanceName, .padded 64 "", [⟨rate⟩, ⟨cut⟩], rfl⟩

/-- A file that names one class twice.  One well comes twice in the first block and again in a
second one, whose timestep becomes the same whole number. -/
def repeatedItems : PlotFile where
  headerPart := ⟨.padded 4 "", .padded 24 "", .metric, .padded 794 "",
    [2, 1, 1, 1980, 10, 10, 3, 0], rfl, by simp⟩
  catalogPart := ⟨.padded 8 "", .padded 8 "", .padded 8 "",
    [⟨.padded 8 "WELL", .padded 4 "TIME", [.padded 4 "GOR"], .padded 8 ""⟩,
      ⟨.padded 8 "WELL", .padded 4 "TIME", [.padded 4 "QOP", .padded 4 "WCUT"], .padded 8 ""⟩],
    by decide⟩
  blocks := [⟨.padded 8 "WELL", [.padded 4 "QOP", .padded 4 "WCUT"], .padded 8 "", ⟨0x3F800000⟩,
      .zero, ⟨0x40400000⟩, .zero, .zero, [wellItem "P1" 1 2, wellItem "P2" 3 4, wellItem "P1" 5 6],
      .padded 8 "", by decide, by decide, by decide⟩,
    ⟨.padded 8 "WELL", [.padded 4 "QOP", .padded 4 "WCUT"], .padded 8 "", ⟨0x3FC00000⟩,
      ⟨0x40000000⟩, ⟨0x3F800000⟩, .zero, ⟨0x41200000⟩, [wellItem "P1" 7 8],
      .padded 8 "", by decide, by decide, by decide⟩]
  length_classes := rfl

/-- The records of the file alone, from a source that breaks off behind them. -/
def repeatedRecords : Source :=
  ⟨repeatedItems.blocks.flatMap BlockPart.bytes ++ stopTag.bytes, .broken⟩

/-- The key of the well that comes three times. -/
def repeatedKey : SampleKey := ⟨1, .padded 8 "WELL", .padded 8 "P1"⟩

theorem samples_of_repeatedItems :
    Plot.decode (.ofBytes (repeatedItems.bytes ++ [0])) = .ok repeatedItems.plot
      ∧ (∃ (f : PlotFile) (tail : List UInt8), repeatedItems.bytes ++ [0] = f.bytes ++ tail
        ∧ repeatedItems.plot = f.plot
        ∧ InRuns f.plot.catalog f.decodedItems repeatedItems.plot.samples)
      ∧ repeatedKey ∈ repeatedItems.plot.samples.map Sample.key
      ∧ (repeatedItems.plot.samples.filter (·.key = repeatedKey)).length = 3 * 2
      ∧ ∃ t, (Stream.of repeatedRecords).AtHand
        ∧ readRecords repeatedItems.plot.catalog (.of repeatedRecords)
          = .ok repeatedItems.plot.samples t
        ∧ ∃ blocks : List (BlockPart repeatedItems.plot.catalog),
          repeatedRecords.bytes = blocks.flatMap BlockPart.bytes ++ stopTag.bytes ++ t.unread
          ∧ InRuns repeatedItems.plot.catalog (blocks.flatMap BlockPart.decodedItems)
            repeatedItems.plot.samples := by
  have hdecode := decode_bytes_file repeatedItems [0]
  have hhand := Stream.atHand_of repeatedRecords
  obtain ⟨t, hrecords, -⟩ := (recognizes_readRecords repeatedItems.plot.catalog).complete
    hhand ⟨repeatedItems.blocks, rfl, rfl⟩ (List.append_nil _).symm
  exact ⟨hdecode, samples_in_runs.1 _ _ hdecode, by decide +kernel, by decide +kernel, t, hhand,
    hrecords, samples_in_runs.2 _ _ t _ hhand hrecords⟩

end ReservoirPlot
