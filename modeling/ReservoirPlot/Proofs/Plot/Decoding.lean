/-
ReservoirPlot/Proofs/Plot/Decoding.lean

Decoding accepts exactly the format, and gives exactly what a file means.  Every
function of the decoder recognises the grammar of its part of a file:

    readHeader      the bytes and the header of a `HeaderPart`
    readCatalog     the bytes and the catalog of a `CatalogPart`
    readBlock       what follows the class name in a `BlockPart`
    readRecords     blocks and the stop tag
    readPlot        the bytes and the plot of a `PlotFile`

Each statement is assembled with `Recognizes.bind` along the steps of the
function; what remains is to gather the pieces of bytes in a part, and to take a
part apart into them.  Loops go by induction on what bounds them, the blocks by
the recursion of `readRecords` itself.

Main result: `decode_eq_ok_iff`.
-/
import ReservoirPlot.Plot.Decoding
import ReservoirPlot.Proofs.Binary.Patterns
import ReservoirPlot.Proofs.Plot.File
import ReservoirPlot.Proofs.Plot.Recognition

namespace ReservoirPlot

open Layout Reading

/-- Bytes are those of a field of their own length. -/
theorem exists_token {width : Nat} {bytes : List UInt8} (h : bytes.length = width) :
    ∃ t : Token width, bytes = t.bytes :=
  ⟨⟨bytes, h⟩, rfl⟩

/-! ### Header -/

theorem recognizes_readTypeTag :
    Recognizes readTypeTag fun bytes tag => ∃ lead : Token 4, bytes = lead.bytes ++ tag.bytes := by
  refine (((recognizes_skip leadSize "file prefix").bind fun _ =>
    recognizes_readToken 12 "type tag").failingAs _).congr fun bytes tag => ?_
  constructor
  · rintro ⟨front, _, _, rfl, hlead, rfl⟩
    obtain ⟨lead, rfl⟩ := exists_token hlead
    exact ⟨lead, rfl⟩
  · rintro ⟨lead, rfl⟩
    exact ⟨lead.bytes, tag.bytes, (), rfl, lead.length_eq, rfl⟩

theorem recognizes_skipVersionBlocks (n : Nat) :
    Recognizes (skipVersionBlocks n) fun bytes _ => bytes.length = n * 6 := by
  induction n with
  | zero =>
    apply (recognizes_pure ()).congr
    intro bytes _
    rw [Nat.zero_mul, List.length_eq_zero_iff]
    exact and_iff_left rfl
  | succ n ih =>
    refine ((recognizes_skip versionBlockSize "version block").bind fun _ => ih).congr
      fun bytes _ => ?_
    constructor
    · rintro ⟨front, back, _, rfl, hfront, hback⟩
      rw [List.length_append, hfront, hback, Nat.succ_mul, Nat.add_comm]
      rfl
    · intro hlen
      refine ⟨bytes.take 6, bytes.drop 6, (), (List.take_append_drop 6 bytes).symm, ?_, ?_⟩
      · show (bytes.take 6).length = 6
        rw [List.length_take, hlen]
        omega
      · show (bytes.drop 6).length = n * 6
        rw [List.length_drop, hlen]
        omega

theorem recognizes_readUnitSystem :
    Recognizes readUnitSystem fun bytes u => bytes = u.tag.bytes := by
  refine Recognizes.congr (Recognizes.bind (G := fun tag bytes u => bytes = [] ∧ tag = u.tag)
    (recognizes_readToken 6 "unit system") ?_) ?_
  · intro tag
    rcases h : UnitSystem.ofTag? tag with - | u
    · apply (recognizes_throw _).congr
      intro bytes u
      refine ⟨False.elim, ?_⟩
      rintro ⟨_, rfl⟩
      rw [UnitSystem.ofTag?_tag] at h
      cases h
    · apply (recognizes_pure u).congr
      intro bytes v
      apply and_congr_right
      intro _
      constructor
      · rintro rfl
        exact (UnitSystem.tag_of_ofTag? h).symm
      · rintro rfl
        rw [UnitSystem.ofTag?_tag] at h
        exact Option.some.inj h
  · intro bytes u
    constructor
    · rintro ⟨_, _, _, rfl, rfl, rfl, rfl⟩
      rw [List.append_nil]
    · rintro rfl
      exact ⟨_, [], u.tag, (List.append_nil _).symm, rfl, rfl, rfl⟩

/-- Words are no negative integers when they are below half their range. -/
theorem find?_neg_eq_none_iff (words : List UInt32) :
    (words.map Int32.ofUInt32).find? (· < 0) = none ↔ ∀ w ∈ words, w.toNat < 2 ^ 31 := by
  simp only [List.find?_eq_none, List.forall_mem_map, decide_eq_true_eq, ofUInt32_neg_iff,
    Nat.not_le]

/-- The integers of a header are checked and recorded. -/
theorem recognizes_checkFields (u : UnitSystem) (fields : List Int32) :
    Recognizes
      (match fields.find? (· < 0) with
        | some value => malformed (.negativeField value)
        | none => do
          report (.header (Header.ofFields u fields))
          return Header.ofFields u fields)
      fun bytes h => bytes = [] ∧ fields.find? (· < 0) = none ∧ h = Header.ofFields u fields := by
  generalize fields.find? (· < 0) = found
  rcases found with - | value
  · apply ((recognizes_report _).bind fun _ => recognizes_pure _).congr
    intro bytes _
    constructor
    · rintro ⟨_, _, _, rfl, ⟨rfl, _⟩, rfl, rfl⟩
      exact ⟨rfl, rfl, rfl⟩
    · rintro ⟨rfl, _, rfl⟩
      exact ⟨[], [], (), rfl, ⟨rfl, rfl⟩, rfl, rfl⟩
  · refine (recognizes_malformed _).congr fun bytes _ => ⟨False.elim, ?_⟩
    rintro ⟨_, hnone, _⟩
    cases hnone

/-- The header is read from the bytes of a header part. -/
theorem recognizes_readHeader :
    Recognizes readHeader (.ofParts HeaderPart.bytes HeaderPart.header) := by
  have hrest := (recognizes_skipVersionBlocks versionBlockCount).bind fun _ =>
    recognizes_readUnitSystem.bind fun u =>
    (recognizes_skip headerPaddingSize "header padding").bind fun _ =>
    (recognizes_readInts Header.fieldCount "header fields").bind fun fields =>
    recognizes_checkFields u fields
  refine (recognizes_readTypeTag.bind fun tag =>
    hrest.guarded (tag = typeTag) (recognizes_malformed_bind _ _)).congr fun bytes h => ?_
  constructor
  · rintro ⟨_, _, _, rfl, ⟨lead, rfl⟩, rfl, _, _, _, rfl, hversions, _, _, u, rfl, rfl,
      _, _, _, rfl, hpadding, _, _, _, rfl, ⟨words, ⟨rfl, hlength⟩, rfl⟩, rfl, hnone, rfl⟩
    obtain ⟨versions, rfl⟩ := exists_token hversions
    obtain ⟨padding, rfl⟩ := exists_token hpadding
    refine ⟨⟨lead, versions, u, padding, words, hlength, (find?_neg_eq_none_iff words).mp hnone⟩,
      ?_, rfl⟩
    simp only [HeaderPart.bytes, List.append_assoc, List.append_nil]
  · rintro ⟨x, rfl, rfl⟩
    have hnone := (find?_neg_eq_none_iff x.words).mpr x.words_lt
    rw [HeaderPart.bytes]
    simp only [List.append_assoc]
    exact ⟨_, _, _, (List.append_assoc ..).symm, ⟨x.lead, rfl⟩, rfl,
      _, _, (), rfl, x.versions.length_eq, _, _, _, rfl, rfl,
      _, _, (), rfl, x.padding.length_eq, _, [], _, (List.append_nil _).symm,
      ⟨x.words, ⟨rfl, x.length_words⟩, rfl⟩, rfl, hnone, rfl⟩

/-! ### Catalog -/

theorem recognizes_readClassNames (n : Nat) :
    Recognizes (readClassNames n) fun bytes names =>
      bytes = names.flatMap Token.bytes ∧ names.length = n := by
  induction n with
  | zero =>
    apply (recognizes_pure []).congr
    intro bytes names
    constructor
    · rintro ⟨rfl, rfl⟩
      exact ⟨rfl, rfl⟩
    · rintro ⟨rfl, hlen⟩
      obtain rfl := List.length_eq_zero_iff.mp hlen
      exact ⟨rfl, rfl⟩
  | succ n ih =>
    refine ((recognizes_readToken 8 "class name").bind fun name =>
      ih.map (name :: ·)).congr fun bytes names => ?_
    constructor
    · rintro ⟨_, _, name, rfl, rfl, names, ⟨rfl, rfl⟩, rfl⟩
      exact ⟨rfl, rfl⟩
    · rintro ⟨rfl, hlen⟩
      obtain ⟨name, names, rfl⟩ := List.exists_cons_of_length_eq_add_one hlen
      exact ⟨name.bytes, _, name, rfl, rfl, names, ⟨rfl, Nat.succ.inj hlen⟩, rfl⟩

/-- Checking the counts takes no bytes and passes what is not negative. -/
theorem recognizes_checkCounts (xs : List Int32) :
    Recognizes (checkCounts xs) fun bytes counts =>
      bytes = [] ∧ (∀ x ∈ xs, ¬ x < 0) ∧ counts = xs.map Int32.toNatClampNeg := by
  induction xs with
  | nil =>
    apply (recognizes_pure []).congr
    intro bytes counts
    apply and_congr_right
    intro _
    exact (and_iff_right fun _ h => absurd h List.not_mem_nil).symm
  | cons x xs ih =>
    refine ((ih.map (x.toNatClampNeg :: ·)).guarded_not (x < 0)
      (recognizes_malformed_bind (.negativeVariableCount x) _)).congr fun bytes counts => ?_
    constructor
    · rintro ⟨hx, _, ⟨rfl, hxs, rfl⟩, rfl⟩
      exact ⟨rfl, List.forall_mem_cons.mpr ⟨hx, hxs⟩, rfl⟩
    · rintro ⟨rfl, hall, rfl⟩
      obtain ⟨hx, hxs⟩ := List.forall_mem_cons.mp hall
      exact ⟨hx, _, ⟨rfl, hxs, rfl⟩, rfl⟩

/-- Codes are read back from their bytes. -/
theorem codesOfBytes_flatMap (codes : List VariableCode) :
    codesOfBytes (codes.flatMap Token.bytes) = codes := by
  induction codes with
  | nil => rfl
  | cons code rest ih =>
    obtain ⟨bytes, hlen⟩ := code
    match bytes, hlen with
    | [a, b, c, d], _ =>
      show _ :: codesOfBytes (rest.flatMap Token.bytes) = _
      rw [ih]

/-- Bytes in groups of four are those of the codes that they make. -/
theorem flatMap_codesOfBytes {bytes : List UInt8} (h : 4 ∣ bytes.length) :
    (codesOfBytes bytes).flatMap Token.bytes = bytes := by
  fun_induction codesOfBytes bytes with
  | case1 a b c d rest ih =>
    have hrest : 4 ∣ rest.length := by
      simp only [List.length_cons] at h; omega
    rw [List.flatMap_cons, ih hrest]
    rfl
  | case2 bytes hshort =>
    match bytes, hshort, h with
    | [], _, _ => rfl
    | [_], _, h => simp at h
    | [_, _], _, h => simp at h
    | [_, _, _], _, h => simp at h
    | a :: b :: c :: d :: rest, hshort, _ => exact absurd rfl (hshort a b c d rest)

theorem length_flatMap_bytes {width : Nat} (tokens : List (Token width)) :
    (tokens.flatMap Token.bytes).length = width * tokens.length := by
  induction tokens with
  | nil => rfl
  | cons t rest ih =>
    rw [List.flatMap_cons, List.length_append, t.length_eq, ih, List.length_cons,
      Nat.mul_succ, Nat.add_comm]

/-- Bytes in groups of four are those of some codes. -/
theorem exists_codes {bytes : List UInt8} {count : Nat} (h : bytes.length = 4 * count) :
    ∃ codes : List VariableCode, bytes = codes.flatMap Token.bytes ∧ codes.length = count := by
  have hcodes := flatMap_codesOfBytes ⟨count, h⟩
  refine ⟨codesOfBytes bytes, hcodes.symm, Nat.eq_of_mul_eq_mul_left (Nat.zero_lt_succ 3) ?_⟩
  rw [← length_flatMap_bytes, hcodes, h]

/-- Classes are read into a catalog from their sections, given their names and counts. -/
theorem recognizes_readCodes (entries : List (ClassName × Nat)) (catalog : Catalog) :
    Recognizes (readCodes entries catalog) fun bytes c => ∃ classes : List ClassPart,
      classes.map (fun x => (x.name, x.codes.length)) = entries
        ∧ bytes = classes.flatMap ClassPart.codesBytes
        ∧ c = (classes.map ClassPart.entry).foldl (fun c e => c.insert e.1 e.2) catalog := by
  induction entries generalizing catalog with
  | nil =>
    apply (recognizes_pure catalog).congr
    intro bytes c
    constructor
    · rintro ⟨rfl, rfl⟩
      exact ⟨[], rfl, rfl, rfl⟩
    · rintro ⟨classes, hmap, rfl, rfl⟩
      obtain rfl := List.map_eq_nil_iff.mp hmap
      exact ⟨rfl, rfl⟩
  | cons entry rest ih =>
    obtain ⟨name, count⟩ := entry
    refine ((recognizes_skip timeNameSize "time variable name").bind fun _ =>
      (recognizes_readBytes (4 * count) "variable codes").bind fun b =>
      (recognizes_skip separatorSize "separator").bind fun _ =>
      (recognizes_report (.codes name (codesOfBytes b).length)).bind fun _ =>
      ih (catalog.insert name (codesOfBytes b))).congr fun bytes c => ?_
    constructor
    · rintro ⟨_, _, _, rfl, htime, _, _, b, rfl, ⟨rfl, hlen⟩, _, _, _, rfl, hsep, _, _, _, rfl,
        ⟨rfl, _⟩, classes, rfl, rfl, rfl⟩
      obtain ⟨timeName, rfl⟩ := exists_token htime
      obtain ⟨separator, rfl⟩ := exists_token hsep
      obtain ⟨codes, rfl, rfl⟩ := exists_codes hlen
      refine ⟨⟨name, timeName, codes, separator⟩ :: classes, rfl, ?_, ?_⟩
      · simp only [List.flatMap_cons, ClassPart.codesBytes, List.append_assoc, List.nil_append]
      · rw [codesOfBytes_flatMap]
        rfl
    · rintro ⟨classes, hmap, rfl, rfl⟩
      obtain ⟨x, classes, rfl, hx, rfl⟩ := List.map_eq_cons_iff.mp hmap
      cases hx
      have hcodes := codesOfBytes_flatMap x.codes
      rw [List.flatMap_cons, ClassPart.codesBytes]
      simp only [List.append_assoc]
      refine ⟨_, _, (), rfl, x.timeName.length_eq, _, _, _, rfl,
        ⟨rfl, length_flatMap_bytes x.codes⟩, _, _, (), rfl, x.separator.length_eq,
        [], _, (), rfl, ⟨rfl, rfl⟩, classes, rfl, rfl, ?_⟩
      rw [hcodes]
      rfl

/-- Words that pass the check are the counts that come out of it. -/
theorem counts_of_words {words : List UInt32}
    (h : ∀ x ∈ words.map Int32.ofUInt32, ¬ x < 0) :
    (∀ w ∈ words, w.toNat < 2 ^ 31)
      ∧ (words.map Int32.ofUInt32).map Int32.toNatClampNeg = words.map UInt32.toNat := by
  have hlt : ∀ w ∈ words, w.toNat < 2 ^ 31 := by
    intro w hw
    have := h _ (List.mem_map_of_mem hw)
    rwa [ofUInt32_neg_iff, Nat.not_le] at this
  refine ⟨hlt, ?_⟩
  rw [List.map_map]
  exact List.map_congr_left fun w hw => toNatClampNeg_ofUInt32 (hlt w hw)

theorem ClassPart.toNat_count {x : ClassPart} (h : x.codes.length < 2 ^ 31) :
    x.count.toNat = x.codes.length := by
  rw [ClassPart.count, UInt32.toNat_ofNat']
  exact Nat.mod_eq_of_lt (Nat.lt_trans h (by decide))

/-- Classes that are paired from names and words have these names and words. -/
theorem names_words_of_paired {classes : List ClassPart} {names : List ClassName}
    {words : List UInt32} (hlen : names.length = words.length)
    (h : classes.map (fun x => (x.name, x.codes.length)) = names.zip (words.map UInt32.toNat)) :
    names = classes.map ClassPart.name ∧ words = classes.map ClassPart.count := by
  have hlen' : names.length = (words.map UInt32.toNat).length := by rw [List.length_map, hlen]
  constructor
  · calc names = (names.zip (words.map UInt32.toNat)).map Prod.fst :=
          (List.map_fst_zip (Nat.le_of_eq hlen')).symm
      _ = classes.map ClassPart.name := by rw [← h, List.map_map]; rfl
  · have hself : words.map (UInt32.ofNat ∘ UInt32.toNat) = words.map id :=
      List.map_congr_left fun w _ => UInt32.ofNat_toNat
    calc words = (words.map UInt32.toNat).map UInt32.ofNat := by
          rw [List.map_map, hself, List.map_id]
      _ = ((names.zip (words.map UInt32.toNat)).map Prod.snd).map UInt32.ofNat := by
          rw [List.map_snd_zip (Nat.le_of_eq hlen'.symm)]
      _ = classes.map ClassPart.count := by rw [← h, List.map_map, List.map_map]; rfl

/-- Classes that are paired from words below half their range have no more codes than that. -/
theorem length_codes_lt_of_paired {classes : List ClassPart} {names : List ClassName}
    {words : List UInt32} (hlt : ∀ w ∈ words, w.toNat < 2 ^ 31)
    (h : classes.map (fun x => (x.name, x.codes.length)) = names.zip (words.map UInt32.toNat)) :
    ∀ x ∈ classes, x.codes.length < 2 ^ 31 := by
  intro x hx
  have hpair := List.mem_map_of_mem (f := fun x => (x.name, x.codes.length)) hx
  rw [h] at hpair
  obtain ⟨w, hw, hxw⟩ := List.mem_map.mp (List.of_mem_zip hpair).2
  exact hxw ▸ hlt w hw

namespace CatalogPart

/-- As signed integers, the counts of a catalog part are not negative. -/
theorem counts_nonneg (x : CatalogPart) :
    ∀ y ∈ (x.classes.map ClassPart.count).map Int32.ofUInt32, ¬ y < 0 := by
  intro y hy
  obtain ⟨w, hw, rfl⟩ := List.mem_map.mp hy
  obtain ⟨c, hc, rfl⟩ := List.mem_map.mp hw
  rw [ofUInt32_neg_iff, ClassPart.toNat_count (x.length_codes_lt c hc), Nat.not_le]
  exact x.length_codes_lt c hc

/-- Names and counts that are read from a catalog part pair up as in its classes. -/
theorem zip_names_counts (x : CatalogPart) :
    x.classes.map (fun c => (c.name, c.codes.length))
      = (x.classes.map ClassPart.name).zip
        (((x.classes.map ClassPart.count).map Int32.ofUInt32).map Int32.toNatClampNeg) := by
  rw [(counts_of_words x.counts_nonneg).2, List.map_map, List.zip_map']
  apply List.map_congr_left
  intro c hc
  rw [Function.comp_apply, ClassPart.toNat_count (x.length_codes_lt c hc)]

end CatalogPart

/-- The catalog is read from the bytes of a catalog part with as many classes as it is told. -/
theorem recognizes_readCatalog (classCount : Int32) :
    Recognizes (readCatalog classCount) fun bytes c => ∃ x : CatalogPart,
      bytes = x.bytes ∧ c = x.catalog ∧ (x.classes.length : Int) = classCount.toInt := by
  have hrest := (recognizes_skip separatorSize "separator").bind fun _ =>
    (recognizes_readClassNames classCount.toNatClampNeg).bind fun names =>
    (recognizes_skip separatorSize "separator").bind fun _ =>
    (recognizes_readInts classCount.toNatClampNeg "variable counts").bind fun xs =>
    (recognizes_checkCounts xs).bind fun counts =>
    (recognizes_skip separatorSize "separator").bind fun _ =>
    recognizes_readCodes (names.zip counts) Catalog.empty
  refine (hrest.guarded_not (classCount < 0) (recognizes_malformed_bind _ _)).congr
    fun bytes c => ?_
  rw [Int32.lt_iff_toInt_lt, Int32.toInt_zero, Int.not_lt]
  constructor
  · rintro ⟨hnonneg, _, _, _, rfl, hfirst, _, _, names, rfl, ⟨rfl, hnames⟩, _, _, _, rfl, hsecond,
      _, _, _, rfl, ⟨words, ⟨rfl, hwords⟩, rfl⟩, _, _, _, rfl, ⟨rfl, hcheck, rfl⟩,
      _, _, _, rfl, hthird, classes, hclasses, rfl, rfl⟩
    obtain ⟨first, rfl⟩ := exists_token hfirst
    obtain ⟨second, rfl⟩ := exists_token hsecond
    obtain ⟨third, rfl⟩ := exists_token hthird
    obtain ⟨hlt, hcounts⟩ := counts_of_words hcheck
    rw [hcounts] at hclasses
    have hlengths := length_codes_lt_of_paired hlt hclasses
    obtain ⟨rfl, rfl⟩ := names_words_of_paired (hnames.trans hwords.symm) hclasses
    refine ⟨⟨first, second, third, classes, hlengths⟩, ?_, rfl, ?_⟩
    · simp only [CatalogPart.bytes, List.append_assoc, List.nil_append, List.flatMap_map]
    · rw [List.length_map] at hnames
      rw [hnames]
      exact Int.toNat_of_nonneg hnonneg
  · rintro ⟨x, rfl, rfl, hcount⟩
    have hclamp : classCount.toNatClampNeg = x.classes.length := by
      rw [Int32.toNatClampNeg, ← hcount, Int.toNat_natCast]
    have hnonneg : 0 ≤ classCount.toInt := hcount ▸ Int.natCast_nonneg _
    rw [CatalogPart.bytes]
    simp only [List.append_assoc]
    exact ⟨hnonneg, _, _, (), rfl, x.first.length_eq, _, _, x.classes.map ClassPart.name, rfl,
      ⟨by rw [List.flatMap_map], by rw [List.length_map, hclamp]⟩,
      _, _, (), rfl, x.second.length_eq, _, _, _, rfl,
      ⟨x.classes.map ClassPart.count, ⟨by rw [List.flatMap_map], by rw [List.length_map, hclamp]⟩,
        rfl⟩, [], _, _, rfl, ⟨rfl, x.counts_nonneg, rfl⟩, _, _, (), rfl, x.third.length_eq,
      x.classes, x.zip_names_counts, rfl, rfl⟩

/-! ### Records -/

/-- Items are read from their bytes, each into the samples of its values. -/
theorem recognizes_readItems (head : BlockHead) (className : ClassName)
    (codes : List VariableCode) (n : Nat) :
    Recognizes (readItems head className codes n) fun bytes samples =>
      ∃ items : List (ItemPart codes.length), items.length = n
        ∧ bytes = items.flatMap ItemPart.bytes
        ∧ samples = items.flatMap fun item =>
            itemSamples head className item.instanceName codes item.values := by
  induction n with
  | zero =>
    apply (recognizes_pure []).congr
    intro bytes samples
    constructor
    · rintro ⟨rfl, rfl⟩
      exact ⟨[], rfl, rfl, rfl⟩
    · rintro ⟨items, hlen, rfl, rfl⟩
      obtain rfl := List.length_eq_zero_iff.mp hlen
      exact ⟨rfl, rfl⟩
  | succ n ih =>
    refine ((recognizes_skip separatorSize "separator").bind fun _ =>
      (recognizes_readToken 8 "instance name").bind fun name =>
      (recognizes_skip itemPaddingSize "item padding").bind fun _ =>
      (recognizes_readSingles codes.length "values").bind fun values =>
      ih.map (itemSamples head className name codes values ++ ·)).congr fun bytes samples => ?_
    constructor
    · rintro ⟨_, _, _, rfl, hseparator, _, _, name, rfl, rfl, _, _, _, rfl, hpadding,
        _, _, values, rfl, ⟨rfl, hvalues⟩, _, ⟨items, rfl, rfl, rfl⟩, rfl⟩
      obtain ⟨separator, rfl⟩ := exists_token hseparator
      obtain ⟨padding, rfl⟩ := exists_token hpadding
      refine ⟨⟨separator, name, padding, values, hvalues⟩ :: items, rfl, ?_, rfl⟩
      simp only [List.flatMap_cons, ItemPart.bytes, List.append_assoc]
    · rintro ⟨items, hlen, rfl, rfl⟩
      obtain ⟨item, items, rfl⟩ := List.exists_cons_of_length_eq_add_one hlen
      rw [List.flatMap_cons, ItemPart.bytes]
      simp only [List.append_assoc]
      exact ⟨_, _, (), rfl, item.separator.length_eq, _, _, item.instanceName, rfl, rfl,
        _, _, (), rfl, item.padding.length_eq, _, _, item.values, rfl, ⟨rfl, item.length_values⟩,
        _, ⟨items, Nat.succ.inj hlen, rfl, rfl⟩, rfl⟩

theorem recognizes_lookUpCodes (catalog : Catalog) (className : ClassName) :
    Recognizes (lookUpCodes catalog className) fun bytes codes =>
      bytes = [] ∧ catalog.codes? className = some codes := by
  unfold lookUpCodes
  rcases catalog.codes? className with - | codes
  · refine (recognizes_of_fails ?_).congr fun bytes codes => ⟨False.elim, ?_⟩
    · intro s a t h
      cases h
    · rintro ⟨_, hnone⟩
      cases hnone
  · apply (recognizes_pure codes).congr
    intro bytes found
    apply and_congr_right
    intro _
    rw [Option.some.injEq]
    exact eq_comm

/-- A list of five things is given by its members. -/
theorem eq_of_length_five {α : Type} {xs : List α} (h : xs.length = 5) :
    ∃ a b c d e, xs = [a, b, c, d, e] := by
  match xs, h with
  | [a, b, c, d, e], _ => exact ⟨a, b, c, d, e, rfl⟩

/-- The samples of a block are those of its items. -/
theorem BlockPart.samples_eq {catalog : Catalog} (x : BlockPart catalog) :
    x.samples = x.items.flatMap fun item =>
      itemSamples (.ofWords x.words) x.className item.instanceName x.codes item.values := by
  unfold BlockPart.samples itemSamples
  simp only [List.map_zip_eq_zipWith]
  rfl

/-- A block is read from the bytes of a block part behind its class name. -/
theorem recognizes_readBlock (catalog : Catalog) (className : ClassName)
    (hstop : className ≠ stopTag) :
    Recognizes (readBlock catalog className) fun bytes samples => ∃ x : BlockPart catalog,
      x.className = className ∧ bytes = x.body ∧ samples = x.samples := by
  refine ((recognizes_lookUpCodes catalog className).bind fun codes =>
    (recognizes_skip separatorSize "separator").bind fun _ =>
    (recognizes_readSingles blockWordCount "block header").bind fun words =>
    ((recognizes_readItems (.ofWords words) className codes
        (BlockHead.ofWords words).itemCount.toNatClampNeg).bind fun samples =>
      (recognizes_skip separatorSize "separator").map fun _ => samples).guarded_not
      ((BlockHead.ofWords words).itemCount < 0) (recognizes_malformed_bind _ _)).congr
    fun bytes samples => ?_
  simp only [Int32.lt_iff_toInt_lt, Int32.toInt_zero, Int.not_lt]
  constructor
  · rintro ⟨_, _, codes, rfl, ⟨rfl, hcodes⟩, _, _, _, rfl, hseparator, _, _, words, rfl,
      ⟨rfl, hwords⟩, hnonneg, _, _, _, rfl, ⟨items, hcount, rfl, rfl⟩, _, hclose, rfl⟩
    obtain ⟨separator, rfl⟩ := exists_token hseparator
    obtain ⟨close, rfl⟩ := exists_token hclose
    obtain ⟨timestep, time, itemCount, maxItems, maxPerforations, rfl⟩ := eq_of_length_five hwords
    have hitemCount : itemCount.toInt32.toInt = items.length := by
      rw [hcount]
      exact (Int.toNat_of_nonneg hnonneg).symm
    let x : BlockPart catalog := ⟨className, codes, separator, timestep, time, itemCount, maxItems,
      maxPerforations, items, close, hstop, hcodes, hitemCount⟩
    refine ⟨x, rfl, ?_, x.samples_eq.symm⟩
    simp only [BlockPart.body, BlockPart.words, List.append_assoc, List.nil_append, x]
  · rintro ⟨x, rfl, rfl, rfl⟩
    have hcount : (BlockHead.ofWords x.words).itemCount.toInt = x.items.length := x.itemCount_eq
    have hclamp : x.items.length = (BlockHead.ofWords x.words).itemCount.toNatClampNeg := by
      rw [Int32.toNatClampNeg, hcount, Int.toNat_natCast]
    rw [BlockPart.body]
    simp only [List.append_assoc]
    exact ⟨[], _, x.codes, rfl, ⟨rfl, x.codes_eq⟩, _, _, (), rfl, x.separator.length_eq,
      _, _, x.words, rfl, ⟨rfl, rfl⟩, hcount ▸ Int.natCast_nonneg _, _, _, _, rfl,
      ⟨x.items, hclamp, rfl, rfl⟩, (), x.close.length_eq, x.samples_eq⟩

/-- The blocks are read one after the other as long as no stop tag comes. -/
theorem readRecords_eq (catalog : Catalog) :
    readRecords catalog = (do
      let className ← readToken 8 "class name"
      if className = stopTag then do
        let s ← get
        report (.stop s.offset)
        return []
      else do
        let samples ← readBlock catalog className
        let rest ← readRecords catalog
        return samples ++ rest : Reading (List Sample)) := by
  funext s
  rw [readRecords]
  simp only [bind, EStateM.bind]
  split
  · next h => simp only [h]
  · next className t h =>
    simp only [h]
    by_cases hstop : className = stopTag
    · rw [if_pos hstop, if_pos hstop]
      rfl
    · rw [if_neg hstop, if_neg hstop]
      simp only [EStateM.bind]
      split
      · next hblock => simp only [hblock]
      · next samples u hblock =>
        simp only [hblock]
        rcases readRecords catalog u with - | - <;> rfl

/-- Blocks and the stop tag are read into the samples of the blocks. -/
theorem recognizes_readRecords (catalog : Catalog) :
    Recognizes (readRecords catalog) (.ofParts
      (fun blocks : List (BlockPart catalog) => blocks.flatMap BlockPart.bytes ++ stopTag.bytes)
      (fun blocks => blocks.flatMap BlockPart.samples)) where
  sound := by
    intro s
    -- What a stream may still give is the measure, since a block takes bytes from it.
    induction hn : s.remaining using Nat.strongRecOn generalizing s with
    | _ n ih =>
      intro t samples hs h
      rw [readRecords_eq] at h
      obtain ⟨className, u, hname, h⟩ := bind_eq_ok.mp h
      obtain ⟨_, rfl, hsu⟩ := (recognizes_readToken 8 "class name").sound hs hname
      have hu := hsu.atHand hs
      by_cases hstop : className = stopTag
      · subst hstop
        rw [if_pos rfl] at h
        cases h
        exact ⟨stopTag.bytes, ⟨[], rfl, rfl⟩, hsu.unread, hsu.supply, hsu.offset⟩
      · rw [if_neg hstop] at h
        obtain ⟨_, v, hblock, h⟩ := bind_eq_ok.mp h
        obtain ⟨_, w, hrest, h⟩ := bind_eq_ok.mp h
        cases h
        obtain ⟨_, ⟨x, rfl, rfl, rfl⟩, huv⟩ :=
          (recognizes_readBlock catalog className hstop).sound hu hblock
        obtain ⟨_, ⟨blocks, rfl, rfl⟩, hvw⟩ :=
          ih v.remaining (hn ▸ remaining_lt_of_readBlock hname hblock) rfl (huv.atHand hu) hrest
        have htakes := (hsu.trans huv).trans hvw
        rw [← List.append_assoc] at htakes
        exact ⟨_, ⟨x :: blocks, rfl, rfl⟩, htakes⟩
  complete := by
    rintro s _ rest _ hs ⟨blocks, rfl, rfl⟩ hunread
    induction blocks generalizing s with
    | nil =>
      obtain ⟨t, hname, hst⟩ := (recognizes_readToken 8 "class name").complete hs rfl hunread
      refine ⟨{ t with progress := .stop t.offset :: t.progress }, ?_, hst.unread, hst.supply,
        hst.offset⟩
      rw [readRecords_eq]
      exact bind_eq_ok.mpr ⟨stopTag, t, hname, by rw [if_pos rfl]; rfl⟩
    | cons x blocks ih =>
      have hfront : s.unread = x.className.bytes
          ++ (x.body ++ (blocks.flatMap BlockPart.bytes ++ stopTag.bytes ++ rest)) := by
        rw [hunread]
        simp only [List.flatMap_cons, BlockPart.bytes, List.append_assoc]
      obtain ⟨t, hname, hst⟩ := (recognizes_readToken 8 "class name").complete hs rfl hfront
      have hbody := hst.unread_eq hfront
      obtain ⟨u, hblock, htu⟩ := (recognizes_readBlock catalog _ x.className_ne).complete
        (hst.atHand hs) ⟨x, rfl, rfl, rfl⟩ hbody
      obtain ⟨v, hrest, huv⟩ := ih (htu.atHand (hst.atHand hs)) (htu.unread_eq hbody)
      have htakes := (hst.trans htu).trans huv
      rw [← List.append_assoc] at htakes
      refine ⟨v, ?_, htakes⟩
      rw [readRecords_eq]
      refine bind_eq_ok.mpr ⟨x.className, t, hname, ?_⟩
      rw [if_neg x.className_ne]
      exact bind_eq_ok.mpr ⟨_, u, hblock, bind_eq_ok.mpr ⟨_, v, hrest, rfl⟩⟩

/-! ### The whole file -/

/-- The header counts the classes as its first word does. -/
theorem HeaderPart.toInt_classCount (x : HeaderPart) :
    x.header.classCount.toInt = x.classCount := by
  obtain ⟨lead, versions, u, padding, words, hlen, hlt⟩ := x
  match words, hlen, hlt with
  | w :: rest, _, hlt =>
    show (Int32.ofUInt32 w).toInt = w.toNat
    rw [toInt_ofUInt32, if_pos (hlt w List.mem_cons_self)]

/-- A plot is read from the bytes of a plot file. -/
theorem recognizes_readPlot : Recognizes readPlot (.ofParts PlotFile.bytes PlotFile.plot) := by
  refine (recognizes_readHeader.bind fun header =>
    (recognizes_readCatalog header.classCount).bind fun catalog =>
    (recognizes_readRecords catalog).map (Plot.mk header catalog)).congr
    fun bytes p => ?_
  constructor
  · rintro ⟨_, _, _, rfl, ⟨x, rfl, rfl⟩, _, _, _, rfl, ⟨y, rfl, rfl, hcount⟩, _,
      ⟨blocks, rfl, rfl⟩, rfl⟩
    rw [x.toInt_classCount] at hcount
    refine ⟨⟨x, y, blocks, Int.ofNat.inj hcount⟩, ?_, rfl⟩
    · simp only [PlotFile.bytes, List.append_assoc]
  · rintro ⟨f, rfl, rfl⟩
    rw [PlotFile.bytes]
    simp only [List.append_assoc]
    have hcount : (f.catalogPart.classes.length : Int) = f.headerPart.header.classCount.toInt := by
      rw [f.headerPart.toInt_classCount, f.length_classes]
    exact ⟨_, _, _, rfl, ⟨f.headerPart, rfl, rfl⟩, _, _, _, rfl, ⟨f.catalogPart, rfl, rfl, hcount⟩,
      _, ⟨f.blocks, rfl, rfl⟩, rfl⟩

/-- A read of a stream with all its bytes at hand gives a value exactly when the stream begins
with bytes that stand for it. -/
theorem Reading.Recognizes.outcome_eq_ok_iff {α : Type} {r : Reading α} {G : Grammar α}
    (h : Recognizes r G) {s : Stream} (hs : s.AtHand) {a : α} :
    r.outcome s = .ok a ↔ ∃ bytes tail, s.unread = bytes ++ tail ∧ G bytes a := by
  constructor
  · intro hok
    unfold outcome at hok
    split at hok
    · next t hr =>
      cases hok
      obtain ⟨bytes, hG, hst⟩ := h.sound hs hr
      exact ⟨bytes, t.unread, hst.unread, hG⟩
    · cases hok
  · rintro ⟨bytes, tail, hunread, hG⟩
    obtain ⟨t, hr, _⟩ := h.complete hs hG hunread
    rw [outcome, hr]

/-- A plot file is decoded whatever stands behind its stop tag. -/
theorem decode_bytes_file (f : PlotFile) (tail : List UInt8) :
    Plot.decode (.ofBytes (f.bytes ++ tail)) = .ok f.plot :=
  (recognizes_readPlot.outcome_eq_ok_iff (Stream.atHand_of _)).mpr
    ⟨f.bytes, tail, rfl, f, rfl, rfl⟩

theorem PlotFile.decode_bytes (f : PlotFile) : Plot.decode (.ofBytes f.bytes) = .ok f.plot := by
  have hdecode := decode_bytes_file f []
  rwa [List.append_nil] at hdecode

/-- What decodes to a plot begins with a plot file that means it. -/
theorem exists_file_of_decode {source : Source} {p : Plot} (h : Plot.decode source = .ok p) :
    ∃ (f : PlotFile) (tail : List UInt8), source.bytes = f.bytes ++ tail ∧ p = f.plot := by
  obtain ⟨_, tail, hunread, f, rfl, rfl⟩ :=
    (recognizes_readPlot.outcome_eq_ok_iff (Stream.atHand_of source)).mp h
  exact ⟨f, tail, hunread, rfl⟩

/-! ### The format character by character -/

/-- The bytes of a text whose characters have one byte each. -/
def characterBytes (text : String) : List UInt8 :=
  text.toList.map fun c => UInt8.ofNat c.toNat

/-- **Decoding accepts exactly the format.**  Bytes decode to a plot if and only if they are
those of a plot file that means this plot, with anything behind the stop tag.  In such a file the
tags are the texts below, words have their highest byte first, and the whole numbers that are stored
in single precision are cut to integers. -/
theorem decode_eq_ok_iff :
    (∀ (bytes : List UInt8) (p : Plot), Plot.decode (.ofBytes bytes) = .ok p
      ↔ ∃ (f : PlotFile) (tail : List UInt8), bytes = f.bytes ++ tail ∧ f.Means p)
    ∧ typeTag.bytes = characterBytes "PLOT  BIN   "
    ∧ stopTag.bytes = characterBytes "STOP    "
    ∧ UnitSystem.english.tag.bytes = characterBytes "ENGLIS"
    ∧ UnitSystem.metric.tag.bytes = characterBytes "METRIC"
    ∧ UnitSystem.metricKgCm2.tag.bytes = characterBytes "METKG "
    ∧ UnitSystem.metricBars.tag.bytes = characterBytes "METBAR"
    ∧ UnitSystem.lab.tag.bytes = characterBytes "LAB   "
    ∧ (∀ w : UInt32, (wordBytes w).length = 4 ∧ ((wordBytes w).map UInt8.toNat).foldl
      (fun n b => 256 * n + b) 0 = w.toNat)
    ∧ ∀ x : Binary32, x.CastsTo x.toInt32.toInt := by
  refine ⟨fun bytes p => ⟨fun h => ?_, ?_⟩, by decide, by decide, by decide, by decide, by decide,
    by decide, by decide, fun w => ⟨rfl, ?_⟩, Binary32.castsTo_toInt32⟩
  · obtain ⟨f, tail, hbytes, rfl⟩ := exists_file_of_decode h
    exact ⟨f, tail, hbytes, f.means_plot⟩
  · rintro ⟨f, tail, rfl, hmeans⟩
    rw [decode_bytes_file, f.means_plot.unique hmeans]
  · have hw := w.toNat_lt
    simp only [wordBytes, List.map_cons, List.map_nil, List.foldl_cons, List.foldl_nil,
      UInt8.toNat_ofNat']
    omega

end ReservoirPlot
