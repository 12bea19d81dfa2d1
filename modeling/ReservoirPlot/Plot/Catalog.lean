/-
ReservoirPlot/Plot/Catalog.lean

The variable catalog: for each class the codes of its variables, in the order
in which every instance of the class lists its values.  A class stands in the
catalog once, at the place where it was first named; naming it again replaces
its codes.

The catalog is a list of entries without repeated names, and the two views of it
are `classes` (the names in order) and `codes?` (the codes of a name).  The
lemmas below say what `insert` does to each.
-/
import ReservoirPlot.Token

namespace ReservoirPlot

namespace Catalog

/-- A class and the codes of its variables. -/
abbrev Entry := ClassName × List VariableCode

/-- The entries with the codes of one class set: in its place if it has one, else at
the end. -/
def insertEntry (name : ClassName) (codes : List VariableCode) : List Entry → List Entry
  | [] => [(name, codes)]
  | entry :: rest =>
    if entry.1 = name then (name, codes) :: rest else entry :: insertEntry name codes rest

/-- A new name goes to the end; a known one leaves the names as they are. -/
theorem names_insertEntry (name : ClassName) (codes : List VariableCode) (es : List Entry) :
    (insertEntry name codes es).map Prod.fst
      = if name ∈ es.map Prod.fst then es.map Prod.fst else es.map Prod.fst ++ [name] := by
  induction es with
  | nil => rfl
  | cons entry rest ih =>
    by_cases h : entry.1 = name
    · simp [insertEntry, h]
    · have h' : ¬ name = entry.1 := fun e => h e.symm
      simp only [insertEntry, h, if_false, List.map_cons, ih, List.mem_cons, h', false_or]
      split <;> simp

theorem nodup_insertEntry {name : ClassName} {codes : List VariableCode} {es : List Entry}
    (h : (es.map Prod.fst).Nodup) : ((insertEntry name codes es).map Prod.fst).Nodup := by
  rw [names_insertEntry]
  split
  · exact h
  · next hn => exact List.nodup_append.mpr ⟨h, by simp, by rintro a ha b hb rfl; simp_all⟩

end Catalog

/-- The classes of a plot in order, each with the codes of its variables. -/
structure Catalog where
  entries : List Catalog.Entry
  nodup : (entries.map Prod.fst).Nodup
deriving DecidableEq

namespace Catalog

@[ext] theorem ext {a b : Catalog} (h : a.entries = b.entries) : a = b := by
  cases a; cases b; cases h; rfl

/-- The catalog without classes. -/
def empty : Catalog := ⟨[], List.nodup_nil⟩

/-- The catalog with the codes of a class set. -/
def insert (c : Catalog) (name : ClassName) (codes : List VariableCode) : Catalog :=
  ⟨insertEntry name codes c.entries, nodup_insertEntry c.nodup⟩

/-- The catalog that results from naming classes one after the other. -/
def ofEntries (es : List Entry) : Catalog :=
  es.foldl (fun c entry => c.insert entry.1 entry.2) empty

/-! ### Views -/

/-- The names of the classes, in the order in which they were first named. -/
def classes (c : Catalog) : List ClassName :=
  c.entries.map Prod.fst

/-- The codes of a class, if the catalog has it. -/
def codes? (c : Catalog) (name : ClassName) : Option (List VariableCode) :=
  (c.entries.find? fun entry => entry.1 = name).map Prod.snd

/-- The number of classes. -/
def size (c : Catalog) : Nat :=
  c.entries.length

/-- Whether the catalog has no class. -/
def isEmpty (c : Catalog) : Bool :=
  c.entries.isEmpty

@[simp] theorem classes_empty : empty.classes = [] := rfl

@[simp] theorem codes?_empty (name : ClassName) : empty.codes? name = none := rfl

theorem nodup_classes (c : Catalog) : c.classes.Nodup := c.nodup

@[simp] theorem length_classes (c : Catalog) : c.classes.length = c.size := by
  simp [classes, size]

theorem classes_insert (c : Catalog) (name : ClassName) (codes : List VariableCode) :
    (c.insert name codes).classes
      = if name ∈ c.classes then c.classes else c.classes ++ [name] :=
  names_insertEntry name codes c.entries

/-- After a class has been set, its codes are the new ones. -/
@[simp] theorem codes?_insert_self (c : Catalog) (name : ClassName)
    (codes : List VariableCode) : (c.insert name codes).codes? name = some codes := by
  simp only [codes?, insert]
  induction c.entries with
  | nil => simp [insertEntry]
  | cons entry rest ih =>
    by_cases h : entry.1 = name
    · simp [insertEntry, h]
    · simp [insertEntry, h, ih]

/-- Setting one class leaves the codes of every other as they were. -/
theorem codes?_insert_of_ne {c : Catalog} {name other : ClassName} (h : other ≠ name)
    (codes : List VariableCode) : (c.insert name codes).codes? other = c.codes? other := by
  simp only [codes?, insert]
  induction c.entries with
  | nil => simp [insertEntry, Ne.symm h]
  | cons entry rest ih =>
    by_cases he : entry.1 = name
    · simp [insertEntry, he, Ne.symm h]
    · by_cases ho : entry.1 = other
      · subst ho; simp [insertEntry, he]
      · simp [insertEntry, he, ho, ih]

/-- A class has codes exactly when the catalog lists it. -/
theorem codes?_isSome_iff (c : Catalog) (name : ClassName) :
    (c.codes? name).isSome ↔ name ∈ c.classes := by
  simp [codes?, classes]

end Catalog

end ReservoirPlot
