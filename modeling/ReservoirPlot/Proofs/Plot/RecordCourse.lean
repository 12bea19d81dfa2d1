/-
ReservoirPlot/Proofs/Plot/RecordCourse.lean

The blocks of a plot as they are read.  A `RecordState` is what there is between two
reads: how many blocks and items have been read to their end, the samples gathered
from them, and the stage, which says what is read next and what of the open block is
still needed.

`recordCourse` is a course of `readRecords` (`cuts_recordCourse`).  It accounts for
every byte (`RecordState.spent`): 44 for a block, 80 for an item, 4 for a sample and,
for the open block, what has been read of it.  Each stage takes just the bytes by
which this grows (`pays_recordCourse`), and only the values of an item may be none, so
one byte is put aside for them.
-/
import ReservoirPlot.Proofs.Plot.Course
import ReservoirPlot.Proofs.Plot.Decoding

namespace ReservoirPlot

open Layout Reading

/-! ### Stages -/

/-- The block that is being read: its head, its class and the codes of the class. -/
structure OpenBlock where
  head : BlockHead
  className : ClassName
  codes : List VariableCode

/-- What is read next.  Within an item, `left` is the number of items after it. -/
inductive RecordStage
  | className
  | separator (className : ClassName) (codes : List VariableCode)
  | words (className : ClassName) (codes : List VariableCode)
  | itemSeparator (block : OpenBlock) (left : Nat)
  | instanceName (block : OpenBlock) (left : Nat)
  | padding (block : OpenBlock) (left : Nat) (instanceName : InstanceName)
  | values (block : OpenBlock) (left : Nat) (instanceName : InstanceName)
  | close

/-- Where a block goes on that has so many items left. -/
def OpenBlock.stage (b : OpenBlock) : Nat → RecordStage
  | 0 => .close
  | left + 1 => .itemSeparator b left

/-- What there is between two reads of the blocks. -/
structure RecordState where
  /-- The blocks that have been read to their end. -/
  blocks : Nat
  /-- The items that have been read to their end, in all blocks. -/
  items : Nat
  samples : List Sample
  stage : RecordStage

namespace RecordState

/-- Before the first block. -/
def start : RecordState := ⟨0, 0, [], .className⟩

/-- The same at another stage. -/
def goTo (x : RecordState) (stage : RecordStage) : RecordState := { x with stage := stage }

end RecordState

/-- The reading of the blocks, one read after the other. -/
def recordCourse (catalog : Catalog) : Course RecordState (List Sample) := fun x =>
  match x.stage with
  | .className => do
    let className ← readToken 8 "class name"
    if className = stopTag then do
      let s ← get
      report (.stop s.offset)
      return .inr x.samples
    else do
      let codes ← lookUpCodes catalog className
      return .inl (x.goTo (.separator className codes))
  | .separator className codes => do
    skip separatorSize "separator"
    return .inl (x.goTo (.words className codes))
  | .words className codes => do
    let words ← readSingles blockWordCount "block header"
    let head := BlockHead.ofWords words
    if head.itemCount < 0 then
      malformed (.negativeItemCount head.itemCount className)
    let b : OpenBlock := ⟨head, className, codes⟩
    return .inl (x.goTo (b.stage head.itemCount.toNatClampNeg))
  | .itemSeparator b left => do
    skip separatorSize "separator"
    return .inl (x.goTo (.instanceName b left))
  | .instanceName b left => do
    let name ← readToken 8 "instance name"
    return .inl (x.goTo (.padding b left name))
  | .padding b left name => do
    skip itemPaddingSize "item padding"
    return .inl (x.goTo (.values b left name))
  | .values b left name => do
    let values ← readSingles b.codes.length "values"
    return .inl { x with
      items := x.items + 1
      samples := x.samples ++ itemSamples b.head b.className name b.codes values
      stage := b.stage left }
  | .close => do
    skip separatorSize "separator"
    return .inl { x with blocks := x.blocks + 1, stage := .className }

/-! ### What is still to be read -/

/-- The samples of the blocks up to the stop tag. -/
def blocksRest (catalog : Catalog) : Reading (List Sample) :=
  readRecords catalog

namespace OpenBlock

variable (catalog : Catalog)

/-- The samples of the items left in a block, and of the blocks behind it. -/
def rest (b : OpenBlock) (left : Nat) : Reading (List Sample) := do
  let samples ← readItems b.head b.className b.codes left
  skip separatorSize "separator"
  let more ← blocksRest catalog
  return samples ++ more

/-- The same from the values of an item on. -/
def restFromValues (b : OpenBlock) (left : Nat) (name : InstanceName) :
    Reading (List Sample) := do
  let values ← readSingles b.codes.length "values"
  let more ← b.rest catalog left
  return itemSamples b.head b.className name b.codes values ++ more

end OpenBlock

/-- The samples of a block from its words on, and of the blocks behind it. -/
def restFromWords (catalog : Catalog) (name : ClassName) (codes : List VariableCode) :
    Reading (List Sample) := do
  let words ← readSingles blockWordCount "block header"
  let head := BlockHead.ofWords words
  if head.itemCount < 0 then
    malformed (.negativeItemCount head.itemCount name)
  OpenBlock.rest catalog ⟨head, name, codes⟩ head.itemCount.toNatClampNeg

/-- The samples that are still to be gathered at a stage. -/
def RecordStage.rest (catalog : Catalog) : RecordStage → Reading (List Sample)
  | .className => blocksRest catalog
  | .separator name codes => do
    skip separatorSize "separator"
    restFromWords catalog name codes
  | .words name codes => restFromWords catalog name codes
  | .itemSeparator b left => b.rest catalog (left + 1)
  | .instanceName b left => do
    let name ← readToken 8 "instance name"
    skip itemPaddingSize "item padding"
    b.restFromValues catalog left name
  | .padding b left name => do
    skip itemPaddingSize "item padding"
    b.restFromValues catalog left name
  | .values b left name => b.restFromValues catalog left name
  | .close => do
    skip separatorSize "separator"
    blocksRest catalog

/-- The samples of all blocks, given what has been read of them. -/
def RecordState.rest (catalog : Catalog) (x : RecordState) : Reading (List Sample) :=
  (x.samples ++ ·) <$> x.stage.rest catalog

theorem OpenBlock.rest_stage (catalog : Catalog) (b : OpenBlock) (left : Nat) :
    (b.stage left).rest catalog = b.rest catalog left := by
  cases left with
  | zero =>
    simp only [OpenBlock.stage, RecordStage.rest, OpenBlock.rest, readItems, pure_bind,
      List.nil_append, bind_pure]
  | succ left => rfl

/-- The blocks up to the stop tag, from the separator of the first of them on. -/
theorem blocksRest_eq (catalog : Catalog) : blocksRest catalog = (do
    let name ← readToken 8 "class name"
    if name = stopTag then do
      let s ← get
      report (.stop s.offset)
      return []
    else do
      let codes ← lookUpCodes catalog name
      skip separatorSize "separator"
      restFromWords catalog name codes) := by
  rw [blocksRest, readRecords_eq]
  refine congrArg (readToken 8 "class name" >>= ·) (funext fun name => ?_)
  by_cases hstop : name = stopTag
  · rw [if_pos hstop, if_pos hstop]
  · rw [if_neg hstop, if_neg hstop]
    simp only [readBlock, restFromWords, OpenBlock.rest, bind_assoc]
    refine congrArg (lookUpCodes catalog name >>= ·) (funext fun codes => ?_)
    refine congrArg (skip separatorSize "separator" >>= ·) (funext fun _ => ?_)
    refine congrArg (readSingles blockWordCount "block header" >>= ·) (funext fun words => ?_)
    -- A negative number of items fails on both sides, whatever would come next.
    split
    · rfl
    · simp only [bind_assoc, pure_bind]
      rfl

/-- The blocks are read in the stages of the course. -/
theorem cuts_recordCourse (catalog : Catalog) :
    (recordCourse catalog).Cuts (RecordState.rest catalog) := by
  rintro ⟨blocks, items, samples, stage⟩
  cases stage with
  | className =>
    simp only [RecordState.rest, RecordStage.rest, recordCourse, RecordState.goTo, blocksRest_eq,
      map_bind, bind_assoc]
    refine congrArg (readToken 8 "class name" >>= ·) (funext fun name => ?_)
    split
    · simp only [map_bind, map_pure, List.append_nil, bind_assoc, pure_bind, Sum.elim_inr]
    · simp only [map_bind, bind_assoc, pure_bind, Sum.elim_inl, RecordState.rest,
        RecordStage.rest]
  | separator name codes =>
    simp only [RecordState.rest, RecordStage.rest, recordCourse, RecordState.goTo, map_bind,
      bind_assoc, pure_bind, Sum.elim_inl]
  | words name codes =>
    simp only [RecordState.rest, RecordStage.rest, recordCourse, RecordState.goTo, restFromWords,
      map_bind, bind_assoc]
    refine congrArg (readSingles blockWordCount "block header" >>= ·) (funext fun words => ?_)
    split
    · rfl
    · simp only [pure_bind, Sum.elim_inl, RecordState.rest, OpenBlock.rest_stage]
  | itemSeparator b left =>
    simp only [RecordState.rest, RecordStage.rest, recordCourse, RecordState.goTo, map_bind,
      bind_assoc, pure_bind, Sum.elim_inl, OpenBlock.rest, readItems, OpenBlock.restFromValues,
      List.append_assoc, map_pure]
  | instanceName b left =>
    simp only [RecordState.rest, RecordStage.rest, recordCourse, RecordState.goTo, map_bind,
      bind_assoc, pure_bind, Sum.elim_inl]
  | padding b left name =>
    simp only [RecordState.rest, RecordStage.rest, recordCourse, RecordState.goTo, map_bind,
      bind_assoc, pure_bind, Sum.elim_inl]
  | values b left name =>
    show (samples ++ ·) <$> b.restFromValues catalog left name = _
    simp only [OpenBlock.restFromValues, recordCourse, bind_assoc, pure_bind, Sum.elim_inl,
      RecordState.rest, OpenBlock.rest_stage, map_eq_pure_bind, List.append_assoc]
  | close =>
    simp only [RecordState.rest, RecordStage.rest, recordCourse, map_bind,
      bind_assoc, pure_bind, Sum.elim_inl]

/-! ### What the stages take -/

/-- The bytes of the open block that have been read, but for those of its finished items. -/
def RecordStage.taken : RecordStage → Nat
  | .className => 0
  | .separator .. => 8
  | .words .. => 16
  | .itemSeparator .. => 36
  | .instanceName .. => 44
  | .padding .. => 52
  | .values .. => 116
  | .close => 36

/-- A byte for the values of an item, which may be none. -/
def RecordStage.aside : RecordStage → Nat
  | .values .. => 1
  | _ => 0

namespace RecordState

/-- The bytes that have been read, by what they have been read for. -/
def spent (x : RecordState) : Nat :=
  44 * x.blocks + 80 * x.items + 4 * x.samples.length + x.stage.taken

/-- The samples that have been gathered. -/
def gathered : RecordState ⊕ List Sample → List Sample :=
  Sum.elim samples id

/-- The bytes that what has been reached stands for. -/
def held : RecordState ⊕ List Sample → Nat :=
  Sum.elim spent fun samples => 4 * samples.length

end RecordState

theorem taken_stage (b : OpenBlock) (left : Nat) : (b.stage left).taken = 36 := by
  cases left <;> rfl

theorem aside_stage (b : OpenBlock) (left : Nat) : (b.stage left).aside = 0 := by
  cases left <;> rfl

theorem length_flatMap_singles (values : List Binary32) :
    (values.flatMap fun v => wordBytes v.bits).length = 4 * values.length := by
  rw [← List.flatMap_map Binary32.bits, length_flatMap_wordBytes, List.length_map]

theorem length_itemSamples (head : BlockHead) (className : ClassName) (name : InstanceName)
    {codes : List VariableCode} {values : List Binary32} (h : values.length = codes.length) :
    (itemSamples head className name codes values).length = values.length := by
  rw [itemSamples, List.length_zipWith, h, Nat.min_self]

open RecordState in
theorem affords_goTo {x : RecordState} {stage : RecordStage} {n : Nat} :
    Course.Affords held (fun x => x.stage.aside) x n (.inl (x.goTo stage))
      ↔ stage.taken ≤ x.stage.taken + n ∧ stage.aside < x.stage.aside + n := by
  rw [Course.affords_inl]
  apply and_congr_left
  intro _
  simp only [held, spent, Sum.elim_inl, goTo]
  omega

open RecordState in
/-- The stages take just the bytes that they stand for. -/
theorem pays_recordCourse (catalog : Catalog) :
    (recordCourse catalog).Pays held fun x => x.stage.aside := by
  rintro ⟨blocks, items, samples, stage⟩ s t z hs h
  cases stage with
  | className =>
    obtain ⟨name, u, hname, h⟩ := bind_eq_ok.mp h
    obtain ⟨_, rfl, hsu⟩ := (recognizes_readToken 8 "class name").sound hs hname
    by_cases hstop : name = stopTag
    -- The stop tag takes 8 bytes, for which nothing more is held.
    · rw [if_pos hstop] at h
      cases h
      refine ⟨name.bytes, ⟨hsu.unread, hsu.supply, hsu.offset⟩, Course.affords_inr.mpr ?_⟩
      simp only [held, spent, Sum.elim_inl, Sum.elim_inr]
      omega
    · rw [if_neg hstop] at h
      obtain ⟨codes, v, hcodes, h⟩ := bind_eq_ok.mp h
      cases h
      obtain ⟨_, ⟨rfl, -⟩, huv⟩ :=
        (recognizes_lookUpCodes catalog name).sound (hsu.atHand hs) hcodes
      refine ⟨_, hsu.trans huv, affords_goTo.mpr ?_⟩
      rw [List.append_nil, name.length_eq]
      exact ⟨Nat.le_refl _, Nat.zero_lt_succ _⟩
  | separator name codes =>
    refine Course.pays_of_read (recognizes_skip separatorSize "separator") (fun _ _ hlen => ?_) hs h
    rw [hlen]
    exact affords_goTo.mpr ⟨Nat.le_refl _, Nat.zero_lt_succ _⟩
  | words name codes =>
    obtain ⟨words, u, hwords, h⟩ := bind_eq_ok.mp h
    obtain ⟨_, ⟨rfl, hlen⟩, hsu⟩ :=
      (recognizes_readSingles blockWordCount "block header").sound hs hwords
    split at h
    · cases h
    · cases h
      refine ⟨_, hsu, affords_goTo.mpr ?_⟩
      rw [taken_stage, aside_stage, length_flatMap_singles, hlen]
      exact ⟨Nat.le_refl _, Nat.zero_lt_succ _⟩
  | itemSeparator b left =>
    refine Course.pays_of_read (recognizes_skip separatorSize "separator") (fun _ _ hlen => ?_) hs h
    rw [hlen]
    exact affords_goTo.mpr ⟨Nat.le_refl _, Nat.zero_lt_succ _⟩
  | instanceName b left =>
    refine Course.pays_of_read (recognizes_readToken 8 "instance name") ?_ hs h
    rintro _ name rfl
    rw [name.length_eq]
    exact affords_goTo.mpr ⟨Nat.le_refl _, Nat.zero_lt_succ _⟩
  | padding b left name =>
    refine Course.pays_of_read (recognizes_skip itemPaddingSize "item padding")
      (fun _ _ hlen => ?_) hs h
    rw [hlen]
    exact affords_goTo.mpr ⟨Nat.le_refl _, Nat.le_of_ble_eq_true rfl⟩
  | values b left name =>
    refine Course.pays_of_read (recognizes_readSingles b.codes.length "values") ?_ hs h
    rintro _ values ⟨rfl, hlen⟩
    -- The item is finished: what it took apart from its values now counts as 80.
    rw [Course.affords_inl, length_flatMap_singles]
    simp only [held, spent, Sum.elim_inl, List.length_append, length_itemSamples _ _ _ hlen,
      taken_stage, aside_stage]
    simp only [RecordStage.taken, RecordStage.aside]
    omega
  | close =>
    refine Course.pays_of_read (recognizes_skip separatorSize "separator") ?_ hs h
    rintro bytes _ (hlen : bytes.length = 8)
    rw [Course.affords_inl]
    simp only [held, spent, Sum.elim_inl, RecordStage.taken, RecordStage.aside]
    omega

end ReservoirPlot
