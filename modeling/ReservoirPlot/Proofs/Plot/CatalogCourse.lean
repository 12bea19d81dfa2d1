/-
ReservoirPlot/Proofs/Plot/CatalogCourse.lean

The catalog of a plot as it is read.  A `CatalogStage` is what is read next, with all
that has been read before and is still needed: names, counts and codes, the codes in
the end within the catalog that is made of them.

`catalogCourse` is a course of `readCatalog` (`cuts_catalogCourse`).  A name stands for
8 bytes, a count and a code for 4 each, and at no stage more is added than stands for
the bytes that the stage takes (`pays_catalogCourse`), whatever number of classes is
asked for and whatever the counts say.  The counts of no class and the codes of a class
without variables may be no bytes, so one byte is put aside for each of these stages.
-/
import Mathlib.Algebra.GroupWithZero.Nat
import ReservoirPlot.Proofs.Plot.Course
import ReservoirPlot.Proofs.Plot.Decoding

namespace ReservoirPlot

open Layout Reading

/-! ### Stages -/

/-- What is read next of a catalog.  The names and the counts that have been paired up are those of
the classes whose codes are still to be read. -/
inductive CatalogStage
  | opening
  | className (names : List ClassName) (left : Nat)
  | second (names : List ClassName)
  | countWords (names : List ClassName)
  | third (names : List ClassName) (counts : List Nat)
  | timeName (entry : ClassName × Nat) (later : List (ClassName × Nat)) (catalog : Catalog)
  | codeBytes (entry : ClassName × Nat) (later : List (ClassName × Nat)) (catalog : Catalog)
  | close (name : ClassName) (codes : List VariableCode) (later : List (ClassName × Nat))
    (catalog : Catalog)

namespace CatalogStage

/-- Where the names go on of which so many are left. -/
def naming (names : List ClassName) : Nat → CatalogStage
  | 0 => .second names
  | left + 1 => .className names left

/-- Where the classes go on of which these are left; with the last of them the catalog is made. -/
def entering (catalog : Catalog) : List (ClassName × Nat) → CatalogStage ⊕ Catalog
  | [] => .inr catalog
  | entry :: later => .inl (.timeName entry later catalog)

end CatalogStage

/-- The reading of the catalog, one read after the other. -/
def catalogCourse (classCount : Int32) : Course CatalogStage Catalog
  | .opening => do
    if classCount < 0 then
      malformed (.negativeClassCount classCount)
    skip separatorSize "separator"
    return .inl (.naming [] classCount.toNatClampNeg)
  | .className names left => do
    let name ← readToken 8 "class name"
    return .inl (.naming (names ++ [name]) left)
  | .second names => do
    skip separatorSize "separator"
    return .inl (.countWords names)
  | .countWords names => do
    let words ← readInts classCount.toNatClampNeg "variable counts"
    let counts ← checkCounts words
    return .inl (.third names counts)
  | .third names counts => do
    skip separatorSize "separator"
    return CatalogStage.entering Catalog.empty (names.zip counts)
  | .timeName entry later catalog => do
    skip timeNameSize "time variable name"
    return .inl (.codeBytes entry later catalog)
  | .codeBytes entry later catalog => do
    let bytes ← readBytes (4 * entry.2) "variable codes"
    return .inl (.close entry.1 (codesOfBytes bytes) later catalog)
  | .close name codes later catalog => do
    skip separatorSize "separator"
    report (.codes name codes.length)
    return CatalogStage.entering (catalog.insert name codes) later

/-! ### What is still to be read -/

/-- The catalog from the counts on, given the names. -/
def restFromCounts (classCount : Int32) (names : List ClassName) : Reading Catalog := do
  let words ← readInts classCount.toNatClampNeg "variable counts"
  let counts ← checkCounts words
  skip separatorSize "separator"
  readCodes (names.zip counts) Catalog.empty

/-- The catalog, given what has been read of it. -/
def CatalogStage.rest (classCount : Int32) : CatalogStage → Reading Catalog
  | .opening => readCatalog classCount
  | .className names left => do
    let more ← readClassNames (left + 1)
    skip separatorSize "separator"
    restFromCounts classCount (names ++ more)
  | .second names => do
    skip separatorSize "separator"
    restFromCounts classCount names
  | .countWords names => restFromCounts classCount names
  | .third names counts => do
    skip separatorSize "separator"
    readCodes (names.zip counts) Catalog.empty
  | .timeName entry later catalog => readCodes (entry :: later) catalog
  | .codeBytes entry later catalog => do
    let bytes ← readBytes (4 * entry.2) "variable codes"
    skip separatorSize "separator"
    report (.codes entry.1 (codesOfBytes bytes).length)
    readCodes later (catalog.insert entry.1 (codesOfBytes bytes))
  | .close name codes later catalog => do
    skip separatorSize "separator"
    report (.codes name codes.length)
    readCodes later (catalog.insert name codes)

namespace CatalogStage

theorem rest_naming (classCount : Int32) (names : List ClassName) (left : Nat) :
    (naming names left).rest classCount = (do
      let more ← readClassNames left
      skip separatorSize "separator"
      restFromCounts classCount (names ++ more)) := by
  cases left with
  | zero => simp only [naming, rest, readClassNames, pure_bind, List.append_nil]
  | succ left => rfl

theorem rest_entering (classCount : Int32) (catalog : Catalog)
    (later : List (ClassName × Nat)) :
    Sum.elim (rest classCount) pure (entering catalog later) = readCodes later catalog := by
  cases later <;> rfl

end CatalogStage

open CatalogStage in
/-- The catalog is read in the stages of the course. -/
theorem cuts_catalogCourse (classCount : Int32) :
    (catalogCourse classCount).Cuts (CatalogStage.rest classCount) := by
  intro x
  cases x with
  | opening =>
    simp only [rest, readCatalog, catalogCourse]
    split
    · rfl
    · simp only [bind_assoc, pure_bind, Sum.elim_inl, rest_naming, restFromCounts,
        List.nil_append]
  | className names left =>
    simp only [catalogCourse, bind_assoc, pure_bind, Sum.elim_inl, rest_naming, List.append_assoc,
      List.singleton_append]
    simp only [rest, readClassNames, bind_assoc, pure_bind]
  | second names => simp only [rest, catalogCourse, bind_assoc, pure_bind, Sum.elim_inl]
  | countWords names =>
    simp only [rest, restFromCounts, catalogCourse, bind_assoc, pure_bind, Sum.elim_inl]
  | third names counts =>
    simp only [rest, catalogCourse, bind_assoc, pure_bind, rest_entering]
  | timeName entry later catalog =>
    simp only [rest, readCodes, catalogCourse, bind_assoc, pure_bind, Sum.elim_inl]
  | codeBytes entry later catalog =>
    simp only [rest, catalogCourse, bind_assoc, pure_bind, Sum.elim_inl]
  | close name codes later catalog =>
    simp only [rest, catalogCourse, bind_assoc, pure_bind, rest_entering]

/-! ### What the stages hold -/

/-- How many names, counts and codes there are. -/
structure CatalogHolding where
  names : Nat
  counts : Nat
  codes : Nat

/-- The bytes that names, counts and codes stand for. -/
def CatalogHolding.size (x : CatalogHolding) : Nat :=
  8 * x.names + 4 * x.counts + 4 * x.codes

namespace Catalog

/-- The codes of all classes together. -/
def codeCount (c : Catalog) : Nat :=
  (c.entries.map fun entry => entry.2.length).sum

/-- What a catalog holds. -/
def holding (c : Catalog) : CatalogHolding := ⟨c.size, 0, c.codeCount⟩

theorem length_insertEntry_le (name : ClassName) (codes : List VariableCode) (es : List Entry) :
    (insertEntry name codes es).length ≤ es.length + 1 := by
  induction es with
  | nil => exact Nat.le_refl _
  | cons entry rest ih =>
    rw [insertEntry]
    split
    · exact Nat.le_succ _
    · exact Nat.succ_le_succ ih

theorem sum_insertEntry_le (name : ClassName) (codes : List VariableCode) (es : List Entry) :
    ((insertEntry name codes es).map fun entry => entry.2.length).sum
      ≤ (es.map fun entry => entry.2.length).sum + codes.length := by
  induction es with
  | nil => exact Nat.le_of_eq (Nat.add_comm ..)
  | cons entry rest ih =>
    rw [insertEntry]
    split
    · simp only [List.map_cons, List.sum_cons]
      omega
    · simp only [List.map_cons, List.sum_cons]
      omega

/-- A class adds its name and its codes at most; named again, it adds no name. -/
theorem size_insert_le (c : Catalog) (name : ClassName) (codes : List VariableCode) :
    (c.insert name codes).size ≤ c.size + 1 :=
  length_insertEntry_le name codes c.entries

theorem codeCount_insert_le (c : Catalog) (name : ClassName) (codes : List VariableCode) :
    (c.insert name codes).codeCount ≤ c.codeCount + codes.length :=
  sum_insertEntry_le name codes c.entries

end Catalog

namespace CatalogStage

/-- What a stage holds. -/
def holding : CatalogStage → CatalogHolding
  | .opening => ⟨0, 0, 0⟩
  | .className names _ | .second names | .countWords names => ⟨names.length, 0, 0⟩
  | .third names counts => ⟨names.length, counts.length, 0⟩
  | .timeName _ later catalog | .codeBytes _ later catalog =>
    ⟨catalog.size + later.length + 1, later.length + 1, catalog.codeCount⟩
  | .close _ codes later catalog =>
    ⟨catalog.size + later.length + 1, later.length, catalog.codeCount + codes.length⟩

/-- What is held at a moment. -/
def holdingAt : CatalogStage ⊕ Catalog → CatalogHolding :=
  Sum.elim holding Catalog.holding

/-- The bytes that what is held at a moment stands for. -/
def held (z : CatalogStage ⊕ Catalog) : Nat :=
  (holdingAt z).size

/-- A byte for each stage that may take none. -/
def aside : CatalogStage → Nat
  | .countWords .. | .codeBytes .. => 1
  | _ => 0

/-- Enough for the names so far is enough to go on with the names left. -/
theorem affords_naming {x : CatalogStage} {n : Nat} {names : List ClassName} (left : Nat)
    (hn : 0 < n) (h : 8 * names.length ≤ x.holding.size + n) :
    Course.Affords held aside x n (.inl (naming names left)) := by
  cases left with
  | zero => exact Course.affords_inl.mpr ⟨h, Nat.lt_add_left _ hn⟩
  | succ left => exact Course.affords_inl.mpr ⟨h, Nat.lt_add_left _ hn⟩

/-- Enough for a catalog and the classes left is enough to go on with these. -/
theorem affords_entering {x : CatalogStage} {n : Nat} {catalog : Catalog}
    {later : List (ClassName × Nat)} (hn : 0 < n)
    (h : 8 * (catalog.size + later.length) + 4 * later.length + 4 * catalog.codeCount
      ≤ x.holding.size + n) :
    Course.Affords held aside x n (entering catalog later) := by
  cases later with
  | nil => exact Course.affords_inr.mpr h
  | cons entry later => exact Course.affords_inl.mpr ⟨h, Nat.lt_add_left _ hn⟩

end CatalogStage

open CatalogStage in
/-- The stages take the bytes that they stand for. -/
theorem pays_catalogCourse (classCount : Int32) : (catalogCourse classCount).Pays held aside := by
  intro x s t z hs h
  cases x with
  | opening =>
    simp only [catalogCourse] at h
    split at h
    · cases h
    · refine Course.pays_of_read (recognizes_skip separatorSize "separator") ?_ hs h
      intro _ _ hlen
      rw [hlen]
      exact affords_naming _ (Nat.zero_lt_succ _) (Nat.zero_le _)
  | className names left =>
    refine Course.pays_of_read (recognizes_readToken 8 "class name") ?_ hs h
    rintro _ name rfl
    rw [name.length_eq]
    apply affords_naming left (Nat.zero_lt_succ _)
    rw [List.length_append, List.length_singleton]
    exact Nat.le_refl _
  | second names =>
    refine Course.pays_of_read (recognizes_skip separatorSize "separator") (fun _ _ hlen => ?_) hs h
    rw [hlen]
    exact Course.affords_inl.mpr ⟨Nat.le_add_right _ _, Nat.le_of_ble_eq_true rfl⟩
  | countWords names =>
    obtain ⟨words, u, hwords, h⟩ := bind_eq_ok.mp h
    obtain ⟨counts, v, hcounts, h⟩ := bind_eq_ok.mp h
    cases h
    obtain ⟨_, ⟨raw, ⟨rfl, -⟩, rfl⟩, hsu⟩ :=
      (recognizes_readInts classCount.toNatClampNeg "variable counts").sound hs hwords
    obtain ⟨_, ⟨rfl, -, rfl⟩, huv⟩ := (recognizes_checkCounts _).sound (hsu.atHand hs) hcounts
    refine ⟨_, hsu.trans huv, Course.affords_inl.mpr ?_⟩
    -- The check passes on as many counts as there were words, and takes no bytes.
    rw [List.append_nil, length_flatMap_wordBytes]
    simp only [held, holdingAt, Sum.elim_inl, holding, CatalogHolding.size, List.length_map, aside]
    omega
  | third names counts =>
    refine Course.pays_of_read (recognizes_skip separatorSize "separator") ?_ hs h
    rintro bytes _ (hlen : bytes.length = 8)
    refine affords_entering (by omega) ?_
    -- Names and counts are paired up as far as both go, and are in no catalog yet.
    have hsize : Catalog.empty.size = 0 := rfl
    have hcodes : Catalog.empty.codeCount = 0 := rfl
    simp only [hsize, hcodes, List.length_zip, holding, CatalogHolding.size]
    omega
  | timeName entry later catalog =>
    refine Course.pays_of_read (recognizes_skip timeNameSize "time variable name")
      (fun _ _ hlen => ?_) hs h
    rw [hlen]
    exact Course.affords_inl.mpr ⟨Nat.le_add_right _ _, Nat.le_of_ble_eq_true rfl⟩
  | codeBytes entry later catalog =>
    refine Course.pays_of_read (recognizes_readBytes (4 * entry.2) "variable codes") ?_ hs h
    rintro _ bytes ⟨rfl, hlen⟩
    have hcodes : bytes.length = 4 * (codesOfBytes bytes).length := by
      rw [← length_flatMap_bytes, flatMap_codesOfBytes ⟨entry.2, hlen⟩]
    rw [Course.affords_inl]
    simp only [held, holdingAt, Sum.elim_inl, holding, CatalogHolding.size, aside]
    omega
  | close name codes later catalog =>
    obtain ⟨_, u, hskip, h⟩ := bind_eq_ok.mp h
    cases h
    obtain ⟨bytes, hlen, hsu⟩ := (recognizes_skip separatorSize "separator").sound hs hskip
    replace hlen : bytes.length = 8 := hlen
    refine ⟨bytes, ⟨hsu.unread, hsu.supply, hsu.offset⟩, affords_entering (by omega) ?_⟩
    -- The class and its codes are now held by the catalog, if it does not have the class already.
    have hsize := catalog.size_insert_le name codes
    have hcodes := catalog.codeCount_insert_le name codes
    simp only [holding, CatalogHolding.size]
    omega

end ReservoirPlot
