/-
ReservoirPlot/Proofs/Plot/Endings.lean

How a source ends, and what decoding makes of it.  Let a stream deliver some
bytes, in pieces of whatever size, and end behind them in one way or another.
Then the bytes alone fix what is read from it, except that an error for missing
bytes has three faces (`DecodeError.under`): a source that simply ended is
reported with the offset and the field; one that broke off likewise where a token
was read, and as a failure of the source otherwise; and one that failed is always
a failure of the source.

`Reading.FixedBy` says this of a read at an offset, for all streams that deliver
the bytes at once, and goes from the steps of the decoder to the whole file
(`compositional_fixedBy`).  Only the type tag stands apart: every failure before
its end is the same.

Main result: `outcome_of_delivers`.
-/
import ReservoirPlot.Proofs.Compression.Gzip
import ReservoirPlot.Proofs.Plot.Verdict

namespace ReservoirPlot

open Layout Reading

/-! ### Errors under an ending -/

namespace DecodeError

/-- What the error of a source that simply ends becomes under an ending. -/
def under : DecodeError → Ending → DecodeError
  | unexpectedEnd offset field, .clean => unexpectedEnd offset field
  | unexpectedEnd offset field, .truncated =>
    if field ∈ tokenFields then unexpectedEnd offset field else unreadable
  | unexpectedEnd _ _, .broken => unreadable
  | error, _ => error

@[simp] theorem under_clean (error : DecodeError) : error.under .clean = error := by
  cases error <;> rfl

/-- Where the bytes end at the position, the error may be reported: a token is given by its own
start, and what is read in bulk by the position. -/
def FitsEnd (position : Nat) : DecodeError → Prop
  | unexpectedEnd offset field =>
    field ∈ tokenFields ∧ offset ≤ position ∧ position < offset + 8
      ∨ field ∈ bulkFields ∧ offset = position
  | _ => True

end DecodeError

namespace Reading

variable {α β : Type} {r : Reading α} {f : α → Reading β} {offset n : Nat} {bytes : List UInt8}

/-! ### Reads that the bytes fix -/

/-- At the offset, the read takes `n` of the bytes for a value, whatever delivers them. -/
def Yields (r : Reading α) (offset : Nat) (bytes : List UInt8) (a : α) (n : Nat) : Prop :=
  ∀ ⦃s : Stream⦄ ⦃e : Ending⦄, s.Delivers e bytes → s.offset = offset →
    r.outcome s = .ok a ∧ (r.after s).Delivers e (bytes.drop n) ∧ (r.after s).offset = offset + n

/-- At the offset, the read fails on the bytes, whatever delivers them. -/
def Fails (r : Reading α) (offset : Nat) (bytes : List UInt8) (error : Ending → DecodeError) :
    Prop :=
  ∀ ⦃s : Stream⦄ ⦃e : Ending⦄, s.Delivers e bytes → s.offset = offset →
    r.outcome s = .error (error e)

/-- At the offset, the bytes fix what the read does, and the error behind them is put in terms of
how they end. -/
def FixedBy (r : Reading α) (offset : Nat) (bytes : List UInt8) : Prop :=
  (∃ a n, n ≤ bytes.length ∧ r.Yields offset bytes a n)
    ∨ ∃ error : DecodeError, error.FitsEnd (offset + bytes.length)
      ∧ r.Fails offset bytes error.under

/-! ### Sequences -/

theorem Yields.bind {a : α} {b : β} {m : Nat} (hr : r.Yields offset bytes a n)
    (hf : (f a).Yields (offset + n) (bytes.drop n) b m) :
    (r >>= f).Yields offset bytes b (n + m) := by
  intro s e hs hoffset
  obtain ⟨hvalue, hleft, hmoved⟩ := hr hs hoffset
  rw [outcome_bind, after_bind, hvalue, ← List.drop_drop, ← Nat.add_assoc]
  exact hf hleft hmoved

theorem Yields.bind_fails {a : α} {error : Ending → DecodeError}
    (hr : r.Yields offset bytes a n) (hf : (f a).Fails (offset + n) (bytes.drop n) error) :
    (r >>= f).Fails offset bytes error := by
  intro s e hs hoffset
  obtain ⟨hvalue, hleft, hmoved⟩ := hr hs hoffset
  rw [outcome_bind, hvalue]
  exact hf hleft hmoved

theorem Fails.bind {error : Ending → DecodeError} (hr : r.Fails offset bytes error)
    (f : α → Reading β) : (r >>= f).Fails offset bytes error := by
  intro s e hs hoffset
  rw [outcome_bind, hr hs hoffset]

/-- Behind a first read that has what it needs, a sequence is fixed if the second read is. -/
theorem Yields.bind_fixedBy {a : α} (hn : n ≤ bytes.length) (hr : r.Yields offset bytes a n)
    (hf : (f a).FixedBy (offset + n) (bytes.drop n)) : (r >>= f).FixedBy offset bytes := by
  rcases hf with ⟨b, m, hm, hyields⟩ | ⟨error, hfits, hfails⟩
  · rw [List.length_drop] at hm
    exact .inl ⟨b, n + m, by omega, hr.bind hyields⟩
  · have hend : offset + n + (bytes.drop n).length = offset + bytes.length := by
      rw [List.length_drop]
      omega
    exact .inr ⟨error, hend ▸ hfits, hr.bind_fails hfails⟩

theorem FixedBy.bind (hr : r.FixedBy offset bytes)
    (hf : ∀ a n, (f a).FixedBy (offset + n) (bytes.drop n)) : (r >>= f).FixedBy offset bytes := by
  rcases hr with ⟨a, n, hn, hyields⟩ | ⟨error, hfits, hfails⟩
  · exact hyields.bind_fixedBy hn (hf a n)
  · exact .inr ⟨error, hfits, hfails.bind f⟩

/-! ### Reads that report every failure alike -/

theorem outcome_failingAs (err : DecodeError) (r : Reading α) (s : Stream) :
    (failingAs err r).outcome s = (r.outcome s).mapError fun _ => err := by
  simp only [outcome, failingAs]
  rcases r s with ⟨a, t⟩ | ⟨e, t⟩ <;> rfl

theorem after_failingAs (err : DecodeError) (r : Reading α) (s : Stream) :
    (failingAs err r).after s = r.after s := by
  simp only [after, failingAs]
  rcases r s with ⟨a, t⟩ | ⟨e, t⟩ <;> rfl

theorem Yields.failingAs {a : α} (hr : r.Yields offset bytes a n) (err : DecodeError) :
    (failingAs err r).Yields offset bytes a n := by
  intro s e hs hoffset
  rw [outcome_failingAs, after_failingAs, (hr hs hoffset).1]
  exact ⟨rfl, (hr hs hoffset).2⟩

theorem Fails.failingAs {error : Ending → DecodeError} (hr : r.Fails offset bytes error)
    (err : DecodeError) : (failingAs err r).Fails offset bytes fun _ => err := by
  intro s e hs hoffset
  rw [outcome_failingAs, hr hs hoffset]
  rfl

/-! ### Reads without bytes -/

theorem yields_pure (a : α) : (pure a : Reading α).Yields offset bytes a 0 :=
  fun _ _ hs hoffset => ⟨rfl, hs, hoffset⟩

theorem Yields.map {a : α} (hr : r.Yields offset bytes a n) (g : α → β) :
    (r >>= fun a => pure (g a)).Yields offset bytes (g a) n :=
  hr.bind (f := fun a => pure (g a)) (m := 0) (yields_pure (g a))

/-- An error that does not say that bytes are missing is the same under all endings. -/
theorem fixedBy_throw {error : DecodeError} (hfits : ∀ position, error.FitsEnd position)
    (hunder : ∀ e, error.under e = error) (offset : Nat) (bytes : List UInt8) :
    (throw error : Reading α).FixedBy offset bytes := by
  refine .inr ⟨error, hfits _, ?_⟩
  intro s e _ _
  rw [hunder]
  rfl

/-- Where a read stands is the same for all streams. -/
theorem fixedBy_position {f : Nat → Reading α} (hf : (f offset).FixedBy offset bytes) :
    FixedBy (do let s ← get; f s.offset) offset bytes := by
  rcases hf with ⟨a, n, hn, hyields⟩ | ⟨error, hfits, hfails⟩
  · refine .inl ⟨a, n, hn, ?_⟩
    rintro s e hs rfl
    exact hyields hs rfl
  · refine .inr ⟨error, hfits, ?_⟩
    rintro s e hs rfl
    exact hfails hs rfl

/-! ### Reads of bytes -/

theorem yields_readAt {pace : Pace} (hpace : pace.HasRoom) (field : String)
    (hn : n ≤ bytes.length) : (readAt pace n field).Yields offset bytes (bytes.take n) n := by
  intro s e hs hoffset
  obtain ⟨htake, hleft⟩ := (hs.fill hpace n).take (hs.le_length_fill hpace hn) (offset + n)
  rw [outcome, after, readAt_of_le rfl (hs.le_length_fill hpace hn), htake, Stream.offset_fill,
    hoffset]
  exact ⟨rfl, hleft, rfl⟩

theorem yields_skip (field : String) (hn : n ≤ bytes.length) :
    (skip n field).Yields offset bytes () n :=
  (yields_readAt Pace.hasRoom_even field hn).map fun _ => ()

theorem yields_readToken (offset : Nat) {width : Nat} (field : String) (hn : width ≤ bytes.length) :
    ∃ t : Token width, (readToken width field).Yields offset bytes t width := by
  refine ⟨⟨bytes.take width, List.length_take_of_le hn⟩, ?_⟩
  intro s e hs hoffset
  obtain ⟨htake, hleft⟩ := (hs.fill Pace.hasRoom_whole width).take
    (hs.le_length_fill Pace.hasRoom_whole hn) (offset + width)
  have hread : readToken width field s
      = .ok ⟨bytes.take width, List.length_take_of_le hn⟩
          { s.fill .whole width with
            unread := (s.fill .whole width).unread.drop width, offset := offset + width } := by
    simp only [readToken, htake, List.length_take_of_le hn, dite_true, Stream.offset_fill, hoffset]
  rw [outcome, after, hread]
  exact ⟨rfl, hleft, rfl⟩

/-- A bulk read reports where the bytes end, if the source simply ended. -/
theorem fails_readAt {pace : Pace} (hpace : pace.HasRoom) {field : String}
    (hfield : field ∉ tokenFields) (hn : bytes.length < n) :
    (readAt pace n field).Fails offset bytes
      (DecodeError.unexpectedEnd (offset + bytes.length) field).under := by
  intro s e hs hoffset
  obtain ⟨hunread, hending⟩ := hs.fill_of_lt hpace hn
  have htake : bytes.take n = bytes := List.take_of_length_le (Nat.le_of_lt hn)
  have hne : bytes.length ≠ n := Nat.ne_of_lt hn
  cases e <;>
    simp [outcome, readAt, hunread, hending, htake, hne, hoffset, hfield, DecodeError.under]

/-- The read of a token reports its own start, also if the source broke off. -/
theorem fails_readToken {width : Nat} {field : String} (hn : bytes.length < width) :
    (readToken width field).Fails offset bytes
      fun e => if e = .broken then .unreadable else .unexpectedEnd offset field := by
  intro s e hs hoffset
  obtain ⟨hunread, hending⟩ := hs.fill_of_lt Pace.hasRoom_whole hn
  have htake : bytes.take width = bytes := List.take_of_length_le (Nat.le_of_lt hn)
  have hne : bytes.length ≠ width := Nat.ne_of_lt hn
  cases e <;> simp [outcome, readToken, exactFailure, hunread, hending, htake, hne, hoffset]

theorem fixedBy_readAt {pace : Pace} (hpace : pace.HasRoom) (n : Nat) {field : String}
    (hfield : field ∈ bulkFields) (offset : Nat) (bytes : List UInt8) :
    (readAt pace n field).FixedBy offset bytes := by
  rcases Nat.lt_or_ge bytes.length n with hlt | hle
  · exact .inr ⟨.unexpectedEnd (offset + bytes.length) field, .inr ⟨hfield, rfl⟩,
      fails_readAt hpace (not_mem_tokenFields hfield) hlt⟩
  · exact .inl ⟨_, n, hle, yields_readAt hpace field hle⟩

theorem fixedBy_readToken_bind {width : Nat} (hwidth : width ≤ 8) {field : String}
    (hfield : field ∈ tokenFields) {f : Token width → Reading α}
    (hf : width ≤ bytes.length → ∀ t, (f t).FixedBy (offset + width) (bytes.drop width)) :
    (readToken width field >>= f).FixedBy offset bytes := by
  rcases Nat.lt_or_ge bytes.length width with hlt | hle
  · refine .inr ⟨.unexpectedEnd offset field,
      .inl ⟨hfield, Nat.le_add_right _ _, by omega⟩, Fails.bind ?_ f⟩
    intro s e hs hoffset
    rw [fails_readToken hlt hs hoffset]
    cases e <;> simp [DecodeError.under, hfield]
  · obtain ⟨t, ht⟩ := yields_readToken offset field hle
    exact ht.bind_fixedBy hle (hf hle t)

/-- That the bytes fix what is read goes from the steps of the decoder to the whole. -/
theorem compositional_fixedBy : Compositional @FixedBy where
  value a _ _ := .inl ⟨a, 0, Nat.zero_le _, yields_pure a⟩
  sequence := FixedBy.bind
  fault cause _ := fixedBy_throw (fun _ => trivial) fun e => by cases e <;> rfl
  unknownUnits tag := fixedBy_throw (fun _ => trivial) fun e => by cases e <;> rfl
  progress p _ _ := .inl ⟨(), 0, Nat.zero_le _, fun _ _ hs hoffset => ⟨rfl, hs, hoffset⟩⟩
  position := fixedBy_position
  passing n field hfield offset bytes :=
    (fixedBy_readAt Pace.hasRoom_even n hfield offset bytes).bind fun _ _ =>
      .inl ⟨(), 0, Nat.zero_le _, yields_pure ()⟩
  bulk n field hfield := fixedBy_readAt Pace.hasRoom_probing n hfield
  token hwidth hfield := fixedBy_readToken_bind hwidth hfield

end Reading

/-! ### The type tag -/

/-- Before the end of the type tag, every failure is the same under all endings. -/
theorem fails_readTypeTag {offset : Nat} {bytes : List UInt8} (h : bytes.length < 16) :
    readTypeTag.Fails offset bytes fun _ => .malformed .unverified := by
  rcases Nat.lt_or_ge bytes.length leadSize with hlt | hle
  · have hlead : (readAt .even leadSize "file prefix").Fails offset bytes _ :=
      fails_readAt Pace.hasRoom_even (by decide) hlt
    exact ((hlead.bind _).bind _).failingAs _
  · have htag : (bytes.drop leadSize).length < 12 := by
      rw [List.length_drop, leadSize]
      omega
    exact ((yields_skip _ hle).bind_fails (fails_readToken htag)).failingAs _

theorem fixedBy_readTypeTag (offset : Nat) (bytes : List UInt8) :
    readTypeTag.FixedBy offset bytes := by
  rcases Nat.lt_or_ge bytes.length 16 with hlt | hle
  · exact .inr ⟨.malformed .unverified, trivial, fails_readTypeTag hlt⟩
  · -- The lead and the tag are 16 bytes.
    have hlead : leadSize ≤ bytes.length := Nat.le_trans (by decide) hle
    have htag : 12 ≤ (bytes.drop leadSize).length := by
      rw [List.length_drop, leadSize]
      omega
    obtain ⟨tag, hyields⟩ := yields_readToken (offset + leadSize) "type tag" htag
    have htaken := (yields_skip "file prefix" hlead).bind (f := fun _ => readToken 12 "type tag")
      hyields
    exact .inl ⟨tag, leadSize + 12, hle, htaken.failingAs _⟩

/-! ### The whole file -/

theorem fixedBy_readPlot (bytes : List UInt8) : readPlot.FixedBy 0 bytes :=
  compositional_fixedBy.readPlot_of_typeTag (fixedBy_readTypeTag 0 bytes)

/-- However a stream ends behind the bytes that it delivers, a plot is read from it as from these
bytes alone, and an error is put in terms of the ending. -/
theorem outcome_readPlot {s : Stream} {e : Ending} {bytes : List UInt8} (hs : s.Delivers e bytes)
    (hoffset : s.offset = 0) :
    readPlot.outcome s = (Plot.decode (.ofBytes bytes)).mapError (·.under e) := by
  -- The source that simply ends is one of the streams on which the bytes fix what is read.
  have hsource := Stream.delivers_of (.ofBytes bytes)
  rcases fixedBy_readPlot bytes with ⟨p, n, -, hyields⟩ | ⟨error, -, hfails⟩
  · rw [Plot.decode, (hyields hsource rfl).1, (hyields hs hoffset).1]
    rfl
  · have hclean : Plot.decode (.ofBytes bytes) = .error error := by
      rw [Plot.decode, hfails hsource rfl]
      exact congrArg Except.error error.under_clean
    rw [hclean, hfails hs hoffset]
    rfl

/-- A plot that is read from a stream is that of the bytes which the stream delivers. -/
theorem decode_of_outcome {s : Stream} {e : Ending} {bytes : List UInt8} {p : Plot}
    (hs : s.Delivers e bytes) (hoffset : s.offset = 0) (h : readPlot.outcome s = .ok p) :
    Plot.decode (.ofBytes bytes) = .ok p := by
  rw [outcome_readPlot hs hoffset] at h
  rcases hdecode : Plot.decode (.ofBytes bytes) with error | found
  · rw [hdecode] at h
    cases h
  · rw [hdecode] at h
    exact h

/-- What is reported of bytes that run out fits where they end. -/
theorem fitsEnd_of_decode {bytes : List UInt8} {error : DecodeError}
    (h : Plot.decode (.ofBytes bytes) = .error error) : error.FitsEnd bytes.length := by
  have hsource := Stream.delivers_of (.ofBytes bytes)
  rcases fixedBy_readPlot bytes with ⟨p, n, -, hyields⟩ | ⟨found, hfits, hfails⟩
  · rw [Plot.decode, (hyields hsource rfl).1] at h
    cases h
  · rw [Plot.decode, hfails hsource rfl] at h
    cases h
    rwa [Nat.zero_add, ← found.under_clean] at hfits

/-- An error that is not about missing bytes is the same under all endings. -/
theorem mapError_under {bytes : List UInt8} (e : Ending)
    (h : ∀ offset field, Plot.decode (.ofBytes bytes) ≠ .error (.unexpectedEnd offset field)) :
    (Plot.decode (.ofBytes bytes)).mapError (·.under e) = Plot.decode (.ofBytes bytes) := by
  rcases hdecode : Plot.decode (.ofBytes bytes) with error | p
  · cases error with
    | unexpectedEnd offset field => exact absurd hdecode (h offset field)
    | _ => cases e <;> rfl
  · rfl

/-- **How a failing source is classified, at every position.**  Let a stream deliver some bytes, in
pieces of any size, and end behind them.  Fewer than 16 bytes are never verified.  If the bytes
do not run out when they are all there is, the ending is never seen.  If they do, at some offset
in some field, then a source that broke off is reported likewise where a token is read, and as a
failure where bytes are passed over or read in bulk; and any other failure is reported as one. -/
theorem outcome_of_delivers {s : Stream} {e : Ending} {bytes : List UInt8}
    (hs : s.Delivers e bytes) (hoffset : s.offset = 0) :
    (bytes.length < 16 → readPlot.outcome s = .error (.malformed .unverified))
    ∧ ((∀ offset field, Plot.decode (.ofBytes bytes) ≠ .error (.unexpectedEnd offset field)) →
      readPlot.outcome s = Plot.decode (.ofBytes bytes))
    ∧ ∀ offset field, Plot.decode (.ofBytes bytes) = .error (.unexpectedEnd offset field) →
      16 ≤ bytes.length
      ∧ (field ∈ tokenFields ∧ offset ≤ bytes.length ∧ bytes.length < offset + 8
        ∨ field ∈ bulkFields ∧ offset = bytes.length)
      ∧ (e = .clean → readPlot.outcome s = .error (.unexpectedEnd offset field))
      ∧ (e = .truncated → field ∈ tokenFields →
        readPlot.outcome s = .error (.unexpectedEnd offset field))
      ∧ (e = .truncated → field ∈ bulkFields → readPlot.outcome s = .error .unreadable)
      ∧ (e = .broken → readPlot.outcome s = .error .unreadable) := by
  rw [outcome_readPlot hs hoffset]
  refine ⟨?_, mapError_under e, ?_⟩
  · intro hlength
    rw [(Plot.decode_eq_unverified_iff bytes).mpr hlength]
    cases e <;> rfl
  · intro offset field hend
    have hlength : 16 ≤ bytes.length := by
      refine Nat.le_of_not_lt fun hlt => ?_
      rw [(Plot.decode_eq_unverified_iff bytes).mpr hlt] at hend
      cases hend
    refine ⟨hlength, fitsEnd_of_decode hend, ?_⟩
    rw [hend]
    refine ⟨?_, ?_, ?_, ?_⟩
    · rintro rfl
      rfl
    · rintro rfl hfield
      exact congrArg Except.error (if_pos hfield)
    · rintro rfl hfield
      exact congrArg Except.error (if_neg (not_mem_tokenFields hfield))
    · rintro rfl
      rfl

/-- The first `n` bytes of a plot file in a gzip member that breaks off behind them: they are
stored in one block, which should be 1068 bytes long. -/
def cutMember (n : Nat) : List UInt8 :=
  [0x1f, 0x8b, 8, 0, 0, 0, 0, 0, 0, 0xff] ++ [1, 0x2c, 0x04, 0xd3, 0xfb] ++ ratesFile.bytes.take n

/-- A cut in the tag of the unit system and one in the version blocks, both of a compressed file;
and a source that fails behind the stop tag. -/
theorem outcome_cutMember :
    (Stream.ofFile .gzip true ⟨cutMember 43, .clean⟩).Delivers .truncated (ratesFile.bytes.take 43)
      ∧ readPlot.outcome (.ofFile .gzip true ⟨cutMember 43, .clean⟩)
        = .error (.unexpectedEnd 40 "unit system")
      ∧ readPlot.outcome (.ofFile .gzip true ⟨cutMember 20, .clean⟩) = .error .unreadable
      ∧ readPlot.outcome (.of ⟨ratesFile.bytes, .broken⟩) = .ok ratesFile.plot := by
  have htoken : (Stream.ofFile .gzip true ⟨cutMember 43, .clean⟩).Delivers .truncated
      (ratesFile.bytes.take 43) := by
    have hending : (Gzip.Reader.ofBytes (cutMember 43)).ending = .truncated := by decide +kernel
    exact hending ▸ Stream.delivers_ofFile (by decide +kernel) (by decide +kernel) true
  have hbulk : (Stream.ofFile .gzip true ⟨cutMember 20, .clean⟩).Delivers .truncated
      (ratesFile.bytes.take 20) := by
    have hending : (Gzip.Reader.ofBytes (cutMember 20)).ending = .truncated := by decide +kernel
    exact hending ▸ Stream.delivers_ofFile (by decide +kernel) (by decide +kernel) true
  refine ⟨htoken, ?_, ?_, ?_⟩
  · exact ((outcome_of_delivers htoken rfl).2.2 40 "unit system" rfl).2.2.2.1 rfl (by decide)
  · exact ((outcome_of_delivers hbulk rfl).2.2 20 "version block" rfl).2.2.2.2.1 rfl (by decide)
  · have hdecode : Plot.decode (.ofBytes ratesFile.bytes) = .ok ratesFile.plot :=
      ratesFile.decode_bytes
    rw [← hdecode]
    refine (outcome_of_delivers (Stream.delivers_of ⟨ratesFile.bytes, .broken⟩) rfl).2.1 ?_
    intro offset field
    rw [hdecode]
    exact nofun

end ReservoirPlot
