/-
ReservoirPlot/Proofs/Plot/Timesteps.lean

Timesteps as a file stores them.  A block is made for a 32-bit integer, which is stored
as the nearest single-precision number, and the samples that are decoded from the block
carry the 32-bit integer that this number gives (`storedTimestep`):

    samples.map timestep = blocks.flatMap (replicate size (storedTimestep t))

What is stored is the rounded integer, within 32 bits (`toInt_storedTimestep`), so it is
known from the laws of rounding: integers of up to 24 bits are kept, the order is kept,
and none is moved by more than 64.  The greatest integer is rounded beyond 32 bits and
comes back to itself.

Since the order is kept, the sort of a conversion puts two samples in the order of the
integers that their blocks were made for, unless these are stored alike; and then the
samples stay in the order of the file (`pairwise_selected`).

Main result: `timesteps_of_blocks`.
-/
import ReservoirPlot.Proofs.Binary.WholeNumbers
import ReservoirPlot.Proofs.Plot.Draft
import ReservoirPlot.Proofs.Series.Conversion
import ReservoirPlot.Proofs.Series.TimeOrder

namespace ReservoirPlot

open Binary Layout Reading

/-! ### Stored timesteps -/

/-- What a timestep has become when it is read. -/
def storedTimestep (t : Int32) : Int32 := (Binary32.ofInt t.toInt).toInt32

theorem natAbs_toInt_le (t : Int32) : t.toInt.natAbs ≤ 2 ^ 31 := by
  have hlow := t.le_toInt
  have hhigh := t.toInt_lt
  omega

/-- A timestep is stored as the rounded integer, within 32 bits. -/
theorem toInt_storedTimestep (t : Int32) : (storedTimestep t).toInt
    = max (-2 ^ 31) (min (single.roundedInt t.toInt) (2 ^ 31 - 1)) :=
  Binary32.toInt_toInt32_ofInt (natAbs_toInt_le t)

/-- Timesteps up to `2 ^ 24` are stored exactly. -/
theorem storedTimestep_of_le {t : Int32} (h : t.toInt.natAbs ≤ 2 ^ 24) : storedTimestep t = t :=
  Int32.toInt_inj.mp (Binary32.toInt32_ofInt_of_le h)

/-- Stored timesteps are in the order of the given ones. -/
theorem storedTimestep_mono {t₁ t₂ : Int32} (h : t₁ ≤ t₂) :
    storedTimestep t₁ ≤ storedTimestep t₂ := by
  have hrounded := single.roundedInt_mono (Int32.le_iff_toInt_le.mp h)
  rw [Int32.le_iff_toInt_le, toInt_storedTimestep, toInt_storedTimestep]
  omega

/-- A stored timestep is at most 64 away from the given one. -/
theorem storedTimestep_error (t : Int32) : |(storedTimestep t).toInt - t.toInt| ≤ 64 := by
  have hlow := t.le_toInt
  have hhigh := t.toInt_lt
  have hrounded : |single.roundedInt t.toInt - t.toInt| ≤ 64 := by
    rcases Nat.lt_or_eq_of_le (natAbs_toInt_le t) with hlt | heq
    · -- A number of 31 bits has seven more than a significand.
      have herror := single.roundedInt_error (k := 7) hlt
      omega
    · rw [single.roundedInt_of_natAbs_eq heq, sub_self]
      decide
  -- The given integer has 32 bits, so staying within 32 bits leads no further away from it.
  rw [toInt_storedTimestep]
  rw [abs_eq_max_neg] at hrounded ⊢
  omega

/-- The greatest timestep becomes a number beyond 32 bits, and it comes back. -/
theorem storedTimestep_maxValue : storedTimestep Int32.maxValue = Int32.maxValue
    ∧ (Binary32.ofInt Int32.maxValue.toInt).bits = 0x4F000000
    ∧ (Binary32.ofInt Int32.maxValue.toInt).value? = some (2 ^ 31) := by
  have hrounded : single.roundedInt Int32.maxValue.toInt = (2 ^ 31 : Nat) := by decide +kernel
  have hvalue := Binary32.value?_ofInt (natAbs_toInt_le Int32.maxValue)
  refine ⟨?_, by decide +kernel, ?_⟩
  · rw [← Int32.toInt_inj, toInt_storedTimestep, hrounded]
    decide
  · rw [hvalue, hrounded, Int.cast_natCast, Nat.cast_pow, Nat.cast_ofNat]

/-! ### Reading -/

namespace Block

/-- The block was made for the timestep; items and other words may have been added since. -/
def MadeAt (b : Block) (t : Int32) : Prop :=
  b.timestep = (Block.new b.className t b.time).timestep

variable {b : Block} {t : Int32}

theorem madeAt_new (className : String) (t : Int32) (time : Binary32) :
    (Block.new className t time).MadeAt t := rfl

theorem MadeAt.item (h : b.MadeAt t) (instanceName : String) (values : List Binary32) :
    (b.item instanceName values).MadeAt t := h

theorem MadeAt.toInt32_timestep (h : b.MadeAt t) : b.timestep.toInt32 = storedTimestep t :=
  congrArg Binary32.toInt32 h

end Block

namespace PlotDraft

variable {d : PlotDraft} {b : Block} {t : Int32}

/-- The codes of the class of a block. -/
def blockCodes (d : PlotDraft) (b : Block) : List VariableCode :=
  d.codesOf (Token.padded 8 b.className)

/-- The samples of a block that fits all carry the stored timestep. -/
theorem map_timestep_samples (hb : d.Admits b) (ht : b.MadeAt t) :
    (b.items.flatMap (itemSamples (d.blockCodes b) b)).map (·.timestep)
      = List.replicate (b.items.length * (d.blockCodes b).length) (storedTimestep t) := by
  rw [List.eq_replicate_iff]
  constructor
  · -- Every item has one sample for each of the codes.
    have hitem : ∀ item ∈ b.items,
        (itemSamples (d.blockCodes b) b item).length = (d.blockCodes b).length := by
      intro item hitem
      have hlen : item.2.length = (d.blockCodes b).length := hb.length_values item hitem
      rw [itemSamples, List.length_map, List.length_zip, hlen, Nat.min_self]
    rw [List.length_map, List.length_flatMap, List.map_congr_left hitem, List.map_const',
      List.sum_replicate_nat]
  · intro t' ht'
    obtain ⟨x, hx, rfl⟩ := List.mem_map.mp ht'
    obtain ⟨item, -, hitem⟩ := List.mem_flatMap.mp hx
    obtain ⟨cv, -, rfl⟩ := List.mem_map.mp hitem
    exact ht.toInt32_timestep

/-- Blocks that fit are read, with anything behind the stop tag, into their samples. -/
theorem exists_readRecords {blocks : List Block} (h : ∀ b ∈ blocks, d.Admits b)
    (tail : List UInt8) : ∃ s, readRecords (.ofEntries d.entries)
        (.of (.ofBytes (blocks.flatMap blockBytes ++ stopTag.bytes ++ tail)))
      = .ok (blocks.flatMap fun b => b.items.flatMap (itemSamples (d.blockCodes b) b)) s := by
  obtain ⟨parts, -, hbytes, hsamples⟩ :
      ∃ xs : List (BlockPart (.ofEntries d.entries)), xs.length = blocks.length
        ∧ xs.flatMap BlockPart.bytes = blocks.flatMap blockBytes
        ∧ xs.flatMap BlockPart.samples
          = blocks.flatMap fun b => b.items.flatMap (itemSamples (d.blockCodes b) b) :=
    exists_parts blocks fun b hb => exists_blockPart (h b hb) rfl
  have hunread : (Stream.of (.ofBytes
      (blocks.flatMap blockBytes ++ stopTag.bytes ++ tail))).unread
      = parts.flatMap BlockPart.bytes ++ stopTag.bytes ++ tail := by
    rw [hbytes]
    rfl
  obtain ⟨s, hread, -⟩ := (recognizes_readRecords (.ofEntries d.entries)).complete
    (Stream.atHand_of _) ⟨parts, rfl, hsamples.symm⟩ hunread
  exact ⟨s, hread⟩

/-- Whatever items a block has, what is read as its samples carries the stored timestep. -/
theorem timestep_of_readBlock {catalog : Catalog} (ht : b.MadeAt t)
    (hstop : Token.padded 8 b.className ≠ stopTag) {s s' : Stream} (hs : s.AtHand)
    {rest : List UInt8} (hunread : nameBytes 8 b.className ++ s.unread = blockBytes b ++ rest)
    {samples : List Sample}
    (h : readBlock catalog (Token.padded 8 b.className) s = .ok samples s') :
    ∀ x ∈ samples, x.timestep = storedTimestep t := by
  obtain ⟨_, ⟨part, -, rfl, rfl⟩, htakes⟩ :=
    (recognizes_readBlock catalog _ hstop).sound hs h
  rw [htakes.unread, blockBytes, BlockPart.body] at hunread
  simp only [List.append_assoc] at hunread
  have hbody := List.append_cancel_left hunread
  obtain ⟨-, hwords⟩ := List.append_inj hbody (by
    rw [length_zeros, part.separator.length_eq]
    rfl)
  obtain ⟨hwords, -⟩ := List.append_inj hwords rfl
  -- The first word of the part is that of the block.
  have hbits : part.words.map Binary32.bits = (headWords b).map Binary32.bits := by
    apply flatMap_wordBytes_injective
    rw [List.flatMap_map, List.flatMap_map]
    exact hwords
  have htimestep : part.timestep = b.timestep := congrArg Binary32.mk (List.cons.inj hbits).1
  intro x hx
  obtain ⟨item, -, hitem⟩ := List.mem_flatMap.mp hx
  obtain ⟨cv, -, rfl⟩ := List.mem_map.mp hitem
  show part.timestep.toInt32 = storedTimestep t
  rw [htimestep, ht.toInt32_timestep]

end PlotDraft

/-! ### Sorting -/

/-- **The sort of a conversion inverts no two timesteps.**  Of two samples, the first in the sorted
list was given the lower timestep or one that is stored alike. -/
theorem pairwise_selected (p : Plot) (className instanceName : String) :
    (p.selected className instanceName).Pairwise fun a b => ∀ t₁ t₂,
      a.timestep = storedTimestep t₁ → b.timestep = storedTimestep t₂ →
      t₁ ≤ t₂ ∨ storedTimestep t₁ = storedTimestep t₂ := by
  refine (p.inTimeOrder_selected className instanceName).ascending.imp ?_
  intro a b hab t₁ t₂ ha hb
  rw [ha, hb] at hab
  -- Given the other way round, they are stored that way as well, and so they are stored alike.
  rcases Int32.le_total t₁ t₂ with hle | hge
  · exact .inl hle
  · exact .inr (Int32.le_antisymm hab (storedTimestep_mono hge))

/-- **Timesteps survive in order.**  Blocks that fit are read into samples that carry the stored
timesteps, as many for each block as it has values, and no block is ever read with another timestep.
Timesteps up to `2 ^ 24` are kept; the order is kept, so that the sort of a conversion inverts no
two of them and leaves samples of one stored timestep in their order; none is moved by more than 64,
and the greatest one is kept although its number is `2 ^ 31`. -/
theorem timesteps_of_blocks :
    (∀ (d : PlotDraft) (made : List (Int32 × Block)) (tail : List UInt8),
      (∀ x ∈ made, d.Admits x.2 ∧ x.2.MadeAt x.1) →
      ∃ samples s, readRecords (.ofEntries d.entries) (.of (.ofBytes
          (made.flatMap (fun x => PlotDraft.blockBytes x.2) ++ stopTag.bytes ++ tail)))
          = .ok samples s
        ∧ samples.map (·.timestep) = made.flatMap fun x =>
          List.replicate (x.2.items.length * (d.blockCodes x.2).length) (storedTimestep x.1))
    ∧ (∀ (b : Block) (t : Int32) (catalog : Catalog) (s s' : Stream) (rest : List UInt8)
        (samples : List Sample), b.MadeAt t → Token.padded 8 b.className ≠ stopTag → s.AtHand →
      PlotDraft.nameBytes 8 b.className ++ s.unread = PlotDraft.blockBytes b ++ rest →
      readBlock catalog (Token.padded 8 b.className) s = .ok samples s' →
      ∀ x ∈ samples, x.timestep = storedTimestep t)
    ∧ (∀ t : Int32, t.toInt.natAbs ≤ 2 ^ 24 → storedTimestep t = t)
    ∧ (∀ t₁ t₂ : Int32, t₁ ≤ t₂ → storedTimestep t₁ ≤ storedTimestep t₂)
    ∧ (∀ (p : Plot) (className instanceName : String),
      ((p.selected className instanceName).Pairwise fun a b => ∀ t₁ t₂,
        a.timestep = storedTimestep t₁ → b.timestep = storedTimestep t₂ →
        t₁ ≤ t₂ ∨ storedTimestep t₁ = storedTimestep t₂)
      ∧ ∀ t, (p.selected className instanceName).filter (·.timestep = t)
        = (p.samplesWhere (some className) (some instanceName) none).filter (·.timestep = t))
    ∧ (∀ t : Int32, |(storedTimestep t).toInt - t.toInt| ≤ 64)
    ∧ storedTimestep Int32.maxValue = Int32.maxValue
    ∧ (Binary32.ofInt Int32.maxValue.toInt).bits = 0x4F000000
    ∧ (Binary32.ofInt Int32.maxValue.toInt).value? = some (2 ^ 31) := by
  refine ⟨?_, ?_, fun t => storedTimestep_of_le, fun t₁ t₂ => storedTimestep_mono, ?_,
    storedTimestep_error, storedTimestep_maxValue⟩
  · intro d made tail hmade
    have hadmits : ∀ b ∈ made.map Prod.snd, d.Admits b :=
      List.forall_mem_map.mpr fun x hx => (hmade x hx).1
    obtain ⟨s, hread⟩ := PlotDraft.exists_readRecords hadmits tail
    rw [List.flatMap_map, List.flatMap_map] at hread
    refine ⟨_, s, hread, ?_⟩
    rw [List.map_flatMap]
    refine List.flatMap_congr fun x hx => ?_
    exact PlotDraft.map_timestep_samples (hmade x hx).1 (hmade x hx).2
  · intro b t catalog s s' rest samples ht hstop hs hunread h
    exact PlotDraft.timestep_of_readBlock ht hstop hs hunread h
  · intro p className instanceName
    exact ⟨pairwise_selected p className instanceName,
      (p.inTimeOrder_selected className instanceName).stable⟩

/-- A draft of wells. -/
def wellDraft : PlotDraft := (PlotDraft.new UnitSystem.lab.tag).addClass "WELL" ["QOP"]

/-- A block of one well, with the timestep that it is made for. -/
def wellAt (t : Int32) : Int32 × Block :=
  (t, (Block.new "WELL" t .zero).item "P1" [.zero])

theorem admits_wellAt (t : Int32) : wellDraft.Admits (wellAt t).2 ∧ (wellAt t).2.MadeAt t := by
  refine ⟨⟨?_, ?_, ?_, ?_⟩, (Block.madeAt_new "WELL" t .zero).item "P1" [.zero]⟩
  · show Token.padded 8 "WELL" ≠ stopTag
    decide
  · show Token.padded 8 "WELL" ∈ wellDraft.entries.map Prod.fst
    decide +kernel
  · show 1 ≤ 2 ^ 24
    decide
  · intro item hitem
    obtain rfl : item = ("P1", [.zero]) := List.mem_singleton.mp hitem
    show 1 = (wellDraft.codesOf (Token.padded 8 "WELL")).length
    decide +kernel

/-- Blocks for timesteps that lie between two numbers, on both sides of zero, and for the greatest
one. -/
def betweenNumbers : List (Int32 × Block) :=
  [-16777217, 16777217, 16777219, Int32.maxValue].map wellAt

/-- A plot of two samples whose timesteps are stored alike, the second of the lower timestep. -/
def alikePlot : Plot :=
  { outOfOrder with
    samples := [wellSample 16777216 "P1" "QOP" 3, wellSample 16777216 "P1" "QOP" 2] }

theorem selected_alikePlot : alikePlot.selected "WELL" "P1"
    = [wellSample 16777216 "P1" "QOP" 3, wellSample 16777216 "P1" "QOP" 2] := by
  have hsamples : alikePlot.samplesWhere (some "WELL") (some "P1") none
      = [wellSample 16777216 "P1" "QOP" 3, wellSample 16777216 "P1" "QOP" 2] := by
    decide +kernel
  have hselected : alikePlot.selected "WELL" "P1"
      = alikePlot.samplesWhere (some "WELL") (some "P1") none := by
    apply Plot.selected_of_ascending
    rw [hsamples]
    decide +kernel
  rw [hselected, hsamples]

/-- The bytes of one of the blocks behind its class name. -/
def wellBody : List UInt8 :=
  (PlotDraft.blockBytes (wellAt 16777219).2).drop 8

theorem readBlock_wellBody : ∃ samples s, readBlock (.ofEntries wellDraft.entries)
    (Token.padded 8 "WELL") (.of (.ofBytes wellBody)) = .ok samples s ∧ samples.length = 1 := by
  have hlength : ((readBlock (.ofEntries wellDraft.entries) (Token.padded 8 "WELL")).outcome
      (.of (.ofBytes wellBody))).toOption.map List.length = some 1 := by
    decide +kernel
  rw [outcome] at hlength
  split at hlength
  · next samples s hread => exact ⟨samples, s, hread, Option.some.inj hlength⟩
  · cases hlength

theorem timesteps_of_betweenNumbers :
    (∀ x ∈ betweenNumbers, wellDraft.Admits x.2 ∧ x.2.MadeAt x.1)
    ∧ (∃ samples s, readRecords (.ofEntries wellDraft.entries) (.of (.ofBytes
          (betweenNumbers.flatMap (fun x => PlotDraft.blockBytes x.2) ++ stopTag.bytes ++ [0x53])))
          = .ok samples s
        ∧ samples.map (·.timestep) = [-16777216, 16777216, 16777220, 2147483647])
    ∧ (∃ samples s, readBlock (.ofEntries wellDraft.entries) (Token.padded 8 "WELL")
          (.of (.ofBytes wellBody)) = .ok samples s
        ∧ samples.length = 1 ∧ ∀ x ∈ samples, x.timestep = storedTimestep 16777219)
    ∧ storedTimestep (-16777216) = -16777216
    ∧ storedTimestep 16777217 ≤ storedTimestep 16777219
    ∧ storedTimestep 16777217 = storedTimestep 16777216 := by
  obtain ⟨hread, hblock, hexact, hmono, hsort, -⟩ := timesteps_of_blocks
  have hadmits : ∀ x ∈ betweenNumbers, wellDraft.Admits x.2 ∧ x.2.MadeAt x.1 :=
    List.forall_mem_map.mpr fun t _ => admits_wellAt t
  refine ⟨hadmits, ?_, ?_, hexact _ (by decide), hmono _ _ (by decide), ?_⟩
  · obtain ⟨samples, s, hok, htimesteps⟩ := hread wellDraft betweenNumbers [0x53] hadmits
    refine ⟨samples, s, hok, htimesteps.trans ?_⟩
    decide +kernel
  · obtain ⟨samples, s, hok, hlength⟩ := readBlock_wellBody
    have hunread : PlotDraft.nameBytes 8 "WELL" ++ wellBody
        = PlotDraft.blockBytes (wellAt 16777219).2 ++ [] := by
      decide +kernel
    exact ⟨samples, s, hok, hlength, hblock (wellAt 16777219).2 16777219
      (.ofEntries wellDraft.entries) (.of (.ofBytes wellBody)) s [] samples rfl (by decide)
      (Stream.atHand_of _) hunread hok⟩
  · have hpairs := (hsort alikePlot "WELL" "P1").1
    rw [selected_alikePlot, List.pairwise_pair] at hpairs
    rcases hpairs 16777217 16777216 (by decide +kernel) (by decide +kernel) with hle | halike
    · exact absurd hle (by decide)
    · exact halike

end ReservoirPlot
