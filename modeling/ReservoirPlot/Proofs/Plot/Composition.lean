/-
ReservoirPlot/Proofs/Plot/Composition.lean

From single reads to the whole decoder.  A statement about a read at an offset,
on the bytes that are to come, often goes from the steps of a read to the read.
`Reading.Compositional` lists what it takes for that, one clause for each kind of
step.  A statement for which the clauses hold then holds of every function of the
decoder behind the type tag, and of the whole decoder if it holds of the read of
the type tag (`Compositional.readPlot_of_typeTag`).

The clause for tokens is about a token and what is read behind it, since there are
fewer bytes left for that: so the loop over the blocks comes to an end.
-/
import ReservoirPlot.Proofs.Plot.Decoding

namespace ReservoirPlot

open Layout Reading

/-- The fields that are read as tokens, behind the type tag. -/
def tokenFields : List String := ["unit system", "class name", "instance name"]

/-- The fields that are passed over or read in bulk, behind the type tag. -/
def bulkFields : List String :=
  ["version block", "header padding", "header fields", "separator", "variable counts",
    "time variable name", "variable codes", "block header", "item padding", "values"]

theorem not_mem_tokenFields {field : String} (h : field ∈ bulkFields) : field ∉ tokenFields := by
  revert field
  decide

namespace Reading

/-- A statement about a read, an offset and the bytes that are to come holds for all offsets and
bytes. -/
def Always (Q : ∀ {α : Type}, Reading α → Nat → List UInt8 → Prop) {α : Type} (r : Reading α) :
    Prop :=
  ∀ offset bytes, Q r offset bytes

/-- A statement about a read, an offset and the bytes that are to come goes from the steps of the
decoder to what they make up. -/
structure Compositional (Q : ∀ {α : Type}, Reading α → Nat → List UInt8 → Prop) : Prop where
  value : ∀ {α : Type} (a : α), Always Q (pure a : Reading α)
  sequence : ∀ {α β : Type} {r : Reading α} {f : α → Reading β} {offset : Nat}
    {bytes : List UInt8}, Q r offset bytes →
    (∀ a n, Q (f a) (offset + n) (bytes.drop n)) → Q (r >>= f) offset bytes
  fault : ∀ {α : Type} (cause : Malformation), cause ≠ .unverified →
    Always Q (malformed cause : Reading α)
  unknownUnits : ∀ {α : Type} (tag : UnitTag),
    Always Q (throw (.unrecognizedUnitSystem tag) : Reading α)
  progress : ∀ p, Always Q (report p)
  position : ∀ {α : Type} {f : Nat → Reading α} {offset : Nat} {bytes : List UInt8},
    Q (f offset) offset bytes → Q (do let s ← get; f s.offset) offset bytes
  passing : ∀ (n : Nat) {field : String}, field ∈ bulkFields → Always Q (skip n field)
  bulk : ∀ (n : Nat) {field : String}, field ∈ bulkFields → Always Q (readBytes n field)
  /-- Behind a token there are fewer bytes. -/
  token : ∀ {width : Nat} {field : String} {α : Type} {f : Token width → Reading α}
    {offset : Nat} {bytes : List UInt8}, width ≤ 8 → field ∈ tokenFields →
    (width ≤ bytes.length → ∀ t, Q (f t) (offset + width) (bytes.drop width)) →
    Q (readToken width field >>= f) offset bytes

namespace Compositional

variable {Q : ∀ {α : Type}, Reading α → Nat → List UInt8 → Prop}

theorem always_ite {c : Prop} [Decidable c] {α : Type} {r r' : Reading α} (hr : Always Q r)
    (hr' : Always Q r') : Always Q (if c then r else r') := by
  split
  · exact hr
  · exact hr'

variable (h : Compositional Q)
include h

/-! ### Steps -/

section

variable {α β : Type} {field : String}

theorem always_bind {r : Reading α} {f : α → Reading β} (hr : Always Q r)
    (hf : ∀ a, Always Q (f a)) : Always Q (r >>= f) := fun _ _ =>
  h.sequence (hr _ _) fun a _ => hf a _ _

theorem always_token {width : Nat} {f : Token width → Reading α} (hwidth : width ≤ 8)
    (hfield : field ∈ tokenFields) (hf : ∀ t, Always Q (f t)) :
    Always Q (readToken width field >>= f) := fun _ _ =>
  h.token hwidth hfield fun _ t => hf t _ _

/-- What comes behind a check is not reached if the check fails. -/
theorem always_fault (cause : Malformation) (hcause : cause ≠ .unverified) {r : Reading α}
    (hr : Always Q r) : Always Q (malformed cause >>= fun _ : PUnit => r) :=
  h.always_bind (h.fault cause hcause) fun _ => hr

theorem always_readWords (n : Nat) (hfield : field ∈ bulkFields) : Always Q (readWords n field) :=
  h.always_bind (h.bulk _ hfield) fun _ => h.value _

theorem always_readInts (n : Nat) (hfield : field ∈ bulkFields) : Always Q (readInts n field) :=
  h.always_bind (h.always_readWords n hfield) fun _ => h.value _

theorem always_readSingles (n : Nat) (hfield : field ∈ bulkFields) :
    Always Q (readSingles n field) :=
  h.always_bind (h.always_readWords n hfield) fun _ => h.value _

theorem always_separator : Always Q (skip separatorSize "separator") := h.passing _ (by decide)

end

/-! ### Header -/

theorem always_skipVersionBlocks (n : Nat) : Always Q (skipVersionBlocks n) := by
  induction n with
  | zero => exact h.value ()
  | succ n ih => exact h.always_bind (h.passing _ (by decide)) fun _ => ih

theorem always_readUnitSystem : Always Q readUnitSystem := by
  refine h.always_token (by decide) (by decide) fun tag => ?_
  rcases UnitSystem.ofTag? tag with - | u
  · exact h.unknownUnits tag
  · exact h.value u

/-- The check of the integers reads nothing. -/
theorem always_checkFields (u : UnitSystem) (fields : List Int32) :
    Always Q
      (match fields.find? (· < 0) with
        | some value => malformed (.negativeField value)
        | none => do
          report (.header (Header.ofFields u fields))
          return Header.ofFields u fields) := by
  generalize fields.find? (· < 0) = found
  rcases found with - | value
  · exact h.always_bind (h.progress _) fun _ => h.value _
  · exact h.fault (.negativeField value) nofun

/-- The header is read behind its type tag, which is not like other tokens. -/
theorem readHeader_of_typeTag {offset : Nat} {bytes : List UInt8}
    (htag : Q readTypeTag offset bytes) : Q readHeader offset bytes := by
  have hpadding : Always Q (skip headerPaddingSize "header padding") := h.passing _ (by decide)
  have hfields : Always Q (readInts Header.fieldCount "header fields") :=
    h.always_readInts _ (by decide)
  have hrest := h.always_bind (h.always_skipVersionBlocks versionBlockCount) fun _ =>
    h.always_bind h.always_readUnitSystem fun u => h.always_bind hpadding fun _ =>
    h.always_bind hfields fun fields => h.always_checkFields u fields
  exact h.sequence htag fun tag _ =>
    always_ite hrest (h.always_fault (.wrongTypeTag tag) nofun hrest) _ _

/-! ### Catalog -/

theorem always_readClassNames (n : Nat) : Always Q (readClassNames n) := by
  induction n with
  | zero => exact h.value []
  | succ n ih =>
    exact h.always_token (by decide) (by decide) fun _ => h.always_bind ih fun _ => h.value _

theorem always_checkCounts (counts : List Int32) : Always Q (checkCounts counts) := by
  induction counts with
  | nil => exact h.value []
  | cons count counts ih =>
    have hrest := h.always_bind ih fun rest => h.value (count.toNatClampNeg :: rest)
    exact always_ite (h.always_fault (.negativeVariableCount count) nofun hrest) hrest

theorem always_readCodes (entries : List (ClassName × Nat)) (catalog : Catalog) :
    Always Q (readCodes entries catalog) := by
  induction entries generalizing catalog with
  | nil => exact h.value catalog
  | cons entry rest ih =>
    exact h.always_bind (h.passing _ (by decide)) fun _ =>
      h.always_bind (h.bulk _ (by decide)) fun _ => h.always_bind h.always_separator fun _ =>
      h.always_bind (h.progress _) fun _ => ih _

theorem always_readCatalog (classCount : Int32) : Always Q (readCatalog classCount) := by
  have hwords : Always Q (readInts classCount.toNatClampNeg "variable counts") :=
    h.always_readInts _ (by decide)
  have hrest := h.always_bind h.always_separator fun _ =>
    h.always_bind (h.always_readClassNames classCount.toNatClampNeg) fun names =>
    h.always_bind h.always_separator fun _ => h.always_bind hwords fun words =>
    h.always_bind (h.always_checkCounts words) fun counts =>
    h.always_bind h.always_separator fun _ =>
    h.always_readCodes (names.zip counts) Catalog.empty
  exact always_ite (h.always_fault (.negativeClassCount classCount) nofun hrest) hrest

/-! ### Records -/

theorem always_readItems (head : BlockHead) (className : ClassName) (codes : List VariableCode)
    (n : Nat) : Always Q (readItems head className codes n) := by
  induction n with
  | zero => exact h.value []
  | succ n ih =>
    exact h.always_bind h.always_separator fun _ => h.always_token (by decide) (by decide) fun _ =>
      h.always_bind (h.passing _ (by decide)) fun _ =>
      h.always_bind (h.always_readSingles _ (by decide)) fun _ =>
      h.always_bind ih fun _ => h.value _

theorem always_lookUpCodes (catalog : Catalog) (className : ClassName) :
    Always Q (lookUpCodes catalog className) := by
  unfold lookUpCodes
  rcases catalog.codes? className with - | codes
  · exact fun offset bytes =>
      h.position (f := fun offset => malformed (.unknownClass className (offset - 8)))
        (h.fault (.unknownClass className (offset - 8)) nofun _ _)
  · exact h.value codes

theorem always_readBlock (catalog : Catalog) (className : ClassName) :
    Always Q (readBlock catalog className) := by
  refine h.always_bind (h.always_lookUpCodes _ _) fun codes =>
    h.always_bind h.always_separator fun _ =>
    h.always_bind (h.always_readSingles _ (by decide)) fun words => ?_
  have hrest := h.always_bind (h.always_readItems (.ofWords words) className codes
    (BlockHead.ofWords words).itemCount.toNatClampNeg) fun samples =>
      h.always_bind h.always_separator fun _ => h.value samples
  exact always_ite (h.always_fault (.negativeItemCount _ _) nofun hrest) hrest

theorem always_readRecords (catalog : Catalog) : Always Q (readRecords catalog) := by
  intro offset bytes
  -- A block is behind the class name that was read for it, so fewer bytes are left for the rest.
  induction hlength : bytes.length using Nat.strongRecOn generalizing offset bytes with
  | _ length ih =>
    rw [readRecords_eq]
    refine h.token (Nat.le_refl 8) (by decide) fun hle className => ?_
    split
    · -- At the stop tag, where it stands is recorded.
      exact h.position (f := fun offset => do report (.stop offset); return [])
        (h.always_bind (h.progress _) (fun _ => h.value _) _ _)
    · refine h.sequence (h.always_readBlock catalog className _ _) fun samples n => ?_
      refine h.sequence (ih _ ?_ _ _ rfl) fun rest n => h.value _ _ _
      rw [← hlength, List.length_drop, List.length_drop]
      omega

/-! ### The whole file -/

/-- What holds of the read of the type tag holds of the whole decoder. -/
theorem readPlot_of_typeTag {offset : Nat} {bytes : List UInt8}
    (htag : Q readTypeTag offset bytes) : Q readPlot offset bytes :=
  h.sequence (h.readHeader_of_typeTag htag) fun header _ =>
    h.always_bind (h.always_readCatalog header.classCount) (fun catalog =>
      h.always_bind (h.always_readRecords catalog) fun _ => h.value _) _ _

end Compositional

end Reading

end ReservoirPlot
