/-
ReservoirPlot/Proofs/Plot/Classes.lean

The classes of a catalog: their order and their codes.  The list of entries of a catalog
says both at once.  Held apart, they are an order of names and a table of codes, and an
insertion has to keep the two together: it sets the codes in the table, and only a name
that the table did not have before goes to the end of the order (`OrderedTable.insert`).
Even a class without codes counts as one that the table has.  That the two parts always
hold the same catalog is a step lemma and a run lemma:

    OrderedTable.Holds.insert      one insertion
    OrderedTable.holds_ofEntries   any sequence of them

Every catalog that is read comes from insertions.  For a file they are its classes in
file order, so a file has as many classes as its header counts exactly if their names
differ.

Main result: `catalog_of_insertions`.
-/
import Mathlib.Data.Finmap
import ReservoirPlot.Proofs.Plot.Catalog
import ReservoirPlot.Proofs.Plot.Items

namespace ReservoirPlot

open Layout Reading

/-! ### Order and table -/

/-- A catalog in two parts: the names of the classes in order, and a table of their codes. -/
structure OrderedTable where
  order : List ClassName
  table : Finmap fun _ : ClassName => List VariableCode

namespace OrderedTable

def empty : OrderedTable := ⟨[], ∅⟩

/-- Sets the codes of a class in the table.  The order gets the name if the table did not have
it. -/
def insert (x : OrderedTable) (name : ClassName) (codes : List VariableCode) : OrderedTable :=
  ⟨if name ∈ x.table then x.order else x.order ++ [name], x.table.insert name codes⟩

/-- The two parts that result from naming classes one after the other. -/
def ofEntries (es : List Catalog.Entry) : OrderedTable :=
  es.foldl (fun x entry => x.insert entry.1 entry.2) empty

/-- The two parts say what the catalog says. -/
structure Holds (x : OrderedTable) (c : Catalog) : Prop where
  order_eq : x.order = c.classes
  lookup_eq : ∀ name, x.table.lookup name = c.codes? name

variable {x : OrderedTable} {c : Catalog}

/-- The table has a class exactly if the catalog lists it. -/
theorem Holds.mem_table_iff (h : x.Holds c) (name : ClassName) :
    name ∈ x.table ↔ name ∈ c.classes := by
  rw [← Finmap.lookup_isSome, h.lookup_eq, Catalog.codes?_isSome_iff]

/-- The order has no name twice, and its names are those of the table. -/
theorem Holds.order_nodup (h : x.Holds c) : x.order.Nodup :=
  h.order_eq ▸ c.nodup_classes

theorem Holds.toFinset_order (h : x.Holds c) : x.order.toFinset = x.table.keys := by
  ext name
  rw [List.mem_toFinset, Finmap.mem_keys, h.mem_table_iff, h.order_eq]

theorem holds_empty : empty.Holds .empty := ⟨rfl, fun _ => Finmap.lookup_empty _⟩

/-- An insertion keeps the two parts together. -/
theorem Holds.insert (h : x.Holds c) (name : ClassName) (codes : List VariableCode) :
    (x.insert name codes).Holds (c.insert name codes) where
  order_eq := by
    rw [Catalog.classes_insert, OrderedTable.insert, h.order_eq]
    exact if_congr (h.mem_table_iff name) rfl rfl
  lookup_eq := by
    intro other
    show (x.table.insert name codes).lookup other = _
    by_cases heq : other = name
    · rw [heq, Finmap.lookup_insert, Catalog.codes?_insert_self]
    · rw [Finmap.lookup_insert_of_ne _ heq, Catalog.codes?_insert_of_ne heq, h.lookup_eq]

/-- The two parts are together after any insertions. -/
theorem holds_ofEntries (es : List Catalog.Entry) : (ofEntries es).Holds (.ofEntries es) := by
  induction es using List.reverseRecOn with
  | nil => exact holds_empty
  | append_singleton es e ih =>
    rw [Catalog.ofEntries_concat, ofEntries, List.foldl_append]
    exact ih.insert e.1 e.2

end OrderedTable

/-- An insertion leaves every name in its place. -/
theorem Catalog.classes_prefix_insert (c : Catalog) (name : ClassName)
    (codes : List VariableCode) : c.classes <+: (c.insert name codes).classes := by
  rw [classes_insert]
  split
  · exact List.prefix_rfl
  · exact List.prefix_append ..

/-! ### Catalogs that are read -/

/-- The codes that are read are inserted class after class. -/
theorem exists_insertions_of_readCodes {classes : List (ClassName × Nat)} {c catalog : Catalog}
    {s t : Stream} (h : readCodes classes c s = .ok catalog t) :
    ∃ es : List Catalog.Entry, es.map Prod.fst = classes.map Prod.fst
      ∧ catalog = es.foldl (fun c entry => c.insert entry.1 entry.2) c := by
  induction classes generalizing c s with
  | nil =>
    cases h
    exact ⟨[], rfl, rfl⟩
  | cons head rest ih =>
    obtain ⟨name, count⟩ := head
    -- The bytes of the codes are among four reads, and only then the class is inserted.
    obtain ⟨_, _, _, h⟩ := bind_eq_ok.mp h
    obtain ⟨bytes, _, _, h⟩ := bind_eq_ok.mp h
    obtain ⟨_, _, _, h⟩ := bind_eq_ok.mp h
    obtain ⟨_, _, _, h⟩ := bind_eq_ok.mp h
    obtain ⟨es, hnames, rfl⟩ := ih h
    exact ⟨(name, codesOfBytes bytes) :: es, congrArg (name :: ·) hnames, rfl⟩

/-- Every catalog that is read comes from insertions. -/
theorem exists_insertions_of_readCatalog {classCount : Int32} {catalog : Catalog}
    {s t : Stream} (h : readCatalog classCount s = .ok catalog t) :
    ∃ es, catalog = .ofEntries es := by
  unfold readCatalog at h
  dsimp only at h
  split at h
  · obtain ⟨_, _, hfail, -⟩ := bind_eq_ok.mp h
    cases hfail
  · obtain ⟨_, _, _, h⟩ := bind_eq_ok.mp h
    obtain ⟨names, _, _, h⟩ := bind_eq_ok.mp h
    obtain ⟨_, _, _, h⟩ := bind_eq_ok.mp h
    obtain ⟨words, _, _, h⟩ := bind_eq_ok.mp h
    obtain ⟨counts, _, _, h⟩ := bind_eq_ok.mp h
    obtain ⟨_, _, _, h⟩ := bind_eq_ok.mp h
    obtain ⟨es, -, hes⟩ := exists_insertions_of_readCodes h
    exact ⟨es, hes⟩

/-- The classes of a file are those of its catalog part. -/
theorem PlotFile.map_fst_entries (f : PlotFile) :
    (f.catalogPart.classes.map ClassPart.entry).map Prod.fst
      = f.catalogPart.classes.map ClassPart.name := by
  rw [List.map_map]
  rfl

/-- A file has no more classes than its header counts, and as many exactly if their names differ. -/
theorem PlotFile.size_catalog (f : PlotFile) :
    (f.plot.catalog.size : Int) ≤ f.plot.header.classCount.toInt
      ∧ ((f.plot.catalog.size : Int) = f.plot.header.classCount.toInt
        ↔ (f.catalogPart.classes.map ClassPart.name).Nodup) := by
  -- The header counts the names as they come, the catalog each of them once.
  have hcount : f.plot.header.classCount.toInt
      = ((f.catalogPart.classes.map ClassPart.name).length : Int) := by
    rw [List.length_map, f.length_classes]
    exact f.headerPart.toInt_classCount
  have hsize : f.plot.catalog.size = (f.catalogPart.classes.map ClassPart.name).toFinset.card := by
    rw [← f.map_fst_entries]
    exact (Catalog.records_ofEntries _).size_eq
  rw [hcount, hsize, Int.ofNat_le, Int.ofNat_inj]
  exact ⟨List.toFinset_card_le _, Multiset.toFinset_card_eq_card_iff_nodup⟩

/-- **A catalog is what its insertions say.**  After any insertions, and so in any catalog that is
read, the classes are the names inserted, each at its first place, and the codes of a name are those
of its last insertion.  This is so for a catalog in two parts as well, which stay together.  An
insertion moves no class and changes the codes of no other.  A file has no more classes than its
header counts, and as many exactly if the names of its classes differ. -/
theorem catalog_of_insertions :
    (∀ es : List Catalog.Entry, (Catalog.ofEntries es).Records es
      ∧ (Catalog.ofEntries es).classes.Nodup
      ∧ (OrderedTable.ofEntries es).Holds (.ofEntries es)
      ∧ (OrderedTable.ofEntries es).order.Nodup
      ∧ (OrderedTable.ofEntries es).order.toFinset = (OrderedTable.ofEntries es).table.keys)
    ∧ (∀ (c : Catalog) (name : ClassName) (codes : List VariableCode),
      c.classes <+: (c.insert name codes).classes
      ∧ ∀ other, other ≠ name → (c.insert name codes).codes? other = c.codes? other)
    ∧ (∀ (classCount : Int32) (s t : Stream) (catalog : Catalog),
      readCatalog classCount s = .ok catalog t → ∃ es, catalog = .ofEntries es)
    ∧ ∀ (bytes : List UInt8) (p : Plot), Plot.decode (.ofBytes bytes) = .ok p →
      (∃ (f : PlotFile) (tail : List UInt8), bytes = f.bytes ++ tail)
      ∧ ∀ (f : PlotFile) (tail : List UInt8), bytes = f.bytes ++ tail → p = f.plot
        ∧ p.catalog.Records (f.catalogPart.classes.map ClassPart.entry)
        ∧ (p.catalog.size : Int) ≤ p.header.classCount.toInt
        ∧ ((p.catalog.size : Int) = p.header.classCount.toInt
          ↔ (f.catalogPart.classes.map ClassPart.name).Nodup) := by
  refine ⟨fun es => ?_, fun c name codes => ?_, fun _ _ _ _ => exists_insertions_of_readCatalog,
    fun bytes p h => ⟨?_, ?_⟩⟩
  · have hholds := OrderedTable.holds_ofEntries es
    exact ⟨Catalog.records_ofEntries es, Catalog.nodup_classes _, hholds, hholds.order_nodup,
      hholds.toFinset_order⟩
  · exact ⟨c.classes_prefix_insert name codes, fun _ hne => Catalog.codes?_insert_of_ne hne codes⟩
  · obtain ⟨f, tail, hbytes, -⟩ := exists_file_of_decode h
    exact ⟨f, tail, hbytes⟩
  · rintro f tail rfl
    rw [decode_bytes_file] at h
    obtain rfl := Except.ok.inj h
    exact ⟨rfl, Catalog.records_ofEntries _, f.size_catalog⟩

/-- The catalog part of the file alone, from a source that breaks off behind it. -/
def repeatedCatalogPart : Source :=
  ⟨repeatedItems.catalogPart.bytes, .broken⟩

theorem catalog_of_repeatedItems :
    Plot.decode (.ofBytes (repeatedItems.bytes ++ [])) = .ok repeatedItems.plot
      ∧ repeatedItems.plot.catalog.Records
        [(.padded 8 "WELL", [.padded 4 "GOR"]),
          (.padded 8 "WELL", [.padded 4 "QOP", .padded 4 "WCUT"])]
      ∧ (repeatedItems.plot.catalog.size : Int) ≤ repeatedItems.plot.header.classCount.toInt
      ∧ repeatedItems.plot.catalog.size = 1 ∧ repeatedItems.plot.header.classCount = 2
      ∧ (.padded 8 "FIELD" : ClassName) ≠ .padded 8 "WELL"
      ∧ (repeatedItems.plot.catalog.insert (.padded 8 "WELL") []).codes? (.padded 8 "FIELD")
        = repeatedItems.plot.catalog.codes? (.padded 8 "FIELD")
      ∧ ∃ t, readCatalog 2 (.of repeatedCatalogPart)
          = .ok repeatedItems.plot.catalog t
        ∧ ∃ es, repeatedItems.plot.catalog = .ofEntries es := by
  obtain ⟨-, hinsert, hread, hfile⟩ := catalog_of_insertions
  have hdecode := decode_bytes_file repeatedItems []
  obtain ⟨-, hrecords, hle, -⟩ := (hfile _ _ hdecode).2 repeatedItems [] rfl
  have hne : (.padded 8 "FIELD" : ClassName) ≠ .padded 8 "WELL" := by decide
  obtain ⟨t, hcatalog, -⟩ := (recognizes_readCatalog 2).complete
    (Stream.atHand_of repeatedCatalogPart) ⟨repeatedItems.catalogPart, rfl, rfl, rfl⟩
    (List.append_nil _).symm
  exact ⟨hdecode, hrecords, hle, by decide, by decide, hne, (hinsert _ _ _).2 _ hne, t, hcatalog,
    hread _ _ t _ hcatalog⟩

end ReservoirPlot
