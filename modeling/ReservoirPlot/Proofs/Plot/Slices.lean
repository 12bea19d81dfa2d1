/-
ReservoirPlot/Proofs/Plot/Slices.lean

Reads give slices of the bytes.  A stream may be read in any way: by steps of all
seven kinds, of any sizes and in any order, going on behind steps that fail.  Its
bytes are then cut into slices from the front, one for each step that succeeds.

There are two positions, and they may part.  What has been read counts the bytes
(`Stream.HasRead`), and the offset counts those that are accounted for:

* a step that has its bytes moves both by their number (`ReadStep.Slices`);
* a step that has too few ends what is read (`ReadStep.RunsOut`).  A bulk step moves
  the offset to the end as well, an exact one leaves it where it was.

So the offset never passes what has been read, falls behind only when an exact step
fails, and once a step has failed there is nothing left to give.  `slices` and
`runsOut` are the step, and `exists_hasRead` is the run, by induction on the steps.

Sizes may be anything.  Where a size fits 64 bits, the product of a number of words
and the width of a word does not wrap in them (`ReadKind.toNat_demand`).

Main result: `slices_of_reads`.
-/
import ReservoirPlot.Proofs.Plot.Endings

namespace ReservoirPlot

open Reading

/-! ### Steps -/

/-- The kinds of reads. -/
inductive ReadKind
  | skip
  | exact
  | token
  | bytes
  | words
  | ints
  | singles
deriving DecidableEq, Repr

/-- What a read has found; what is passed over is not kept. -/
inductive Found
  | nothing
  | bytes (bytes : List UInt8)
  | words (words : List UInt32)
  | ints (ints : List Int32)
  | singles (singles : List Binary32)
deriving DecidableEq, Repr

namespace ReadKind

/-- Whether the read is an exact one. -/
def isExact : ReadKind → Bool
  | exact => true
  | token => true
  | _ => false

/-- The number of bytes that are asked for: words have four. -/
def size : ReadKind → Nat → Nat
  | skip, n => n
  | exact, n => n
  | token, n => n
  | bytes, n => n
  | words, n => 4 * n
  | ints, n => 4 * n
  | singles, n => 4 * n

/-- The number of bytes that are asked for, computed in 64 bits. -/
def demand : ReadKind → UInt64 → UInt64
  | skip, n => n
  | exact, n => n
  | token, n => n
  | bytes, n => n
  | words, n => 4 * n
  | ints, n => 4 * n
  | singles, n => 4 * n

/-- Reads a number of bytes or words. -/
def read : ReadKind → Nat → String → Reading Found
  | skip, n, field => do
    Reading.skip n field
    return .nothing
  | exact, n, field => do
    let bytes ← readExact n field
    return .bytes bytes
  | token, n, field => do
    let token ← readToken n field
    return .bytes token.bytes
  | bytes, n, field => do
    let bytes ← readBytes n field
    return .bytes bytes
  | words, n, field => do
    let words ← readWords n field
    return .words words
  | ints, n, field => do
    let ints ← readInts n field
    return .ints ints
  | singles, n, field => do
    let singles ← readSingles n field
    return .singles singles

/-- What a read makes of a slice.  Words stand for their bytes, the highest first, and so do the
integers and the numbers that have their bits. -/
inductive Finds : ReadKind → List UInt8 → Found → Prop
  | skip (slice : List UInt8) : Finds skip slice .nothing
  | exact (slice : List UInt8) : Finds exact slice (.bytes slice)
  | token (slice : List UInt8) : Finds token slice (.bytes slice)
  | bytes (slice : List UInt8) : Finds bytes slice (.bytes slice)
  | words (ws : List UInt32) : Finds words (ws.flatMap wordBytes) (.words ws)
  | ints (xs : List Int32) : Finds ints (xs.flatMap fun x => wordBytes x.toUInt32) (.ints xs)
  | singles (xs : List Binary32) :
      Finds singles (xs.flatMap fun x => wordBytes x.bits) (.singles xs)

theorem le_size (kind : ReadKind) (n : Nat) : n ≤ kind.size n := by
  cases kind <;> simp only [size] <;> omega

/-- A size that fits 64 bits is computed in them without wrapping. -/
theorem toNat_demand (kind : ReadKind) {n : UInt64} (h : kind.size n.toNat < 2 ^ 64) :
    (kind.demand n).toNat = kind.size n.toNat := by
  have hwords : 4 * n.toNat < 2 ^ 64 → (4 * n).toNat = 4 * n.toNat := by
    intro hlt
    rw [UInt64.toNat_mul]
    exact Nat.mod_eq_of_lt hlt
  cases kind with
  | skip => rfl
  | exact => rfl
  | token => rfl
  | bytes => rfl
  | words => exact hwords h
  | ints => exact hwords h
  | singles => exact hwords h

end ReadKind

/-! ### Reads that have their bytes -/

namespace Reading

variable {α β : Type} {r : Reading α} {offset n : Nat} {bytes : List UInt8}

theorem yields_readExact (field : String) (hn : n ≤ bytes.length) :
    (readExact n field).Yields offset bytes (bytes.take n) n := by
  intro s e hs hoffset
  have hle := hs.le_length_fill Pace.hasRoom_whole hn
  obtain ⟨htake, hleft⟩ := (hs.fill Pace.hasRoom_whole n).take hle (offset + n)
  rw [outcome, after, readExact_of_le rfl hle, htake, Stream.offset_fill, hoffset]
  exact ⟨rfl, hleft, rfl⟩

theorem yields_readWords (field : String) (hn : 4 * n ≤ bytes.length) :
    (readWords n field).Yields offset bytes (wordsOfBytes (bytes.take (4 * n))) (4 * n) :=
  (yields_readAt Pace.hasRoom_probing field hn).map wordsOfBytes

/-- A token is read as its bytes are. -/
theorem readToken_bind (width : Nat) (field : String) (f : List UInt8 → Reading β) :
    (readToken width field >>= fun t => f t.bytes) = readExact width field >>= f := by
  funext s
  simp only [bind, EStateM.bind, readToken, readExact]
  by_cases h : ((s.fill .whole width).unread.take width).length = width
  · simp only [dif_pos h, if_pos h]
  · simp only [dif_neg h, if_neg h]

end Reading

namespace ReadKind

variable {kind : ReadKind} {n : Nat} {bytes : List UInt8}

theorem read_token (n : Nat) (field : String) : token.read n field = exact.read n field :=
  readToken_bind n field fun bytes => pure (Found.bytes bytes)

/-- The words that are made of a slice stand for it. -/
theorem flatMap_words_take (hn : 4 * n ≤ bytes.length) :
    (wordsOfBytes (bytes.take (4 * n))).flatMap wordBytes = bytes.take (4 * n) :=
  flatMap_wordsOfBytes ⟨n, List.length_take_of_le hn⟩

/-- A read that has its bytes yields what they are. -/
theorem exists_yields (offset : Nat) (field : String) (h : kind.size n ≤ bytes.length) :
    ∃ found, kind.Finds (bytes.take (kind.size n)) found
      ∧ (kind.read n field).Yields offset bytes found (kind.size n) := by
  cases kind with
  | skip => exact ⟨_, .skip _, (yields_skip field h).map fun _ => Found.nothing⟩
  | exact => exact ⟨_, .exact _, (yields_readExact field h).map Found.bytes⟩
  | token =>
    rw [read_token]
    exact ⟨_, .token _, (yields_readExact field h).map Found.bytes⟩
  | bytes =>
    exact ⟨_, .bytes _, (yields_readAt Pace.hasRoom_probing field h).map Found.bytes⟩
  | words =>
    have hfinds := Finds.words (wordsOfBytes (bytes.take (4 * n)))
    rw [flatMap_words_take h] at hfinds
    exact ⟨_, hfinds, (yields_readWords field h).map Found.words⟩
  | ints =>
    have hfinds := Finds.ints ((wordsOfBytes (bytes.take (4 * n))).map Int32.ofUInt32)
    rw [List.flatMap_map, flatMap_words_take h] at hfinds
    exact ⟨_, hfinds, ((yields_readWords field h).map _).map Found.ints⟩
  | singles =>
    have hfinds := Finds.singles ((wordsOfBytes (bytes.take (4 * n))).map Binary32.mk)
    rw [List.flatMap_map, flatMap_words_take h] at hfinds
    exact ⟨_, hfinds, ((yields_readWords field h).map _).map Found.singles⟩

end ReadKind

/-! ### Reads that have too few bytes -/

/-- A stream that was asked for more than there is has all bytes at hand, and nothing is left of
it without them. -/
theorem Stream.Delivers.fill_taken {s : Stream} {e : Ending} {bytes : List UInt8}
    (h : s.Delivers e bytes) {pace : Pace} (hpace : pace.HasRoom) {n : Nat}
    (hn : bytes.length < n) (offset : Nat) :
    Stream.Delivers { s.fill pace n with unread := [], offset := offset } e [] := by
  obtain ⟨rest, hrest, hsupply⟩ := h.fill hpace n
  -- What was gathered are the bytes, so what may still come is nothing.
  rw [(h.fill_of_lt hpace hn).1, List.self_eq_append_right] at hrest
  exact ⟨[], rfl, hrest ▸ hsupply⟩

namespace Reading

variable {α β : Type} {r : Reading α} {offset n reported : Nat} {bytes : List UInt8}
  {field : String}

/-- At the offset, the read takes all of the bytes and wants more; it reports an offset, and there
it leaves the stream. -/
def Exhausts (r : Reading α) (offset : Nat) (bytes : List UInt8) (field : String)
    (reported : Nat) : Prop :=
  ∀ ⦃s : Stream⦄, s.Delivers .clean bytes → s.offset = offset →
    r.outcome s = .error (.unexpectedEnd reported field)
      ∧ (r.after s).Delivers .clean [] ∧ (r.after s).offset = reported

theorem Exhausts.bind (hr : r.Exhausts offset bytes field reported) (f : α → Reading β) :
    (r >>= f).Exhausts offset bytes field reported := by
  intro s hs hoffset
  obtain ⟨houtcome, hleft, hmoved⟩ := hr hs hoffset
  rw [outcome_bind, after_bind, houtcome]
  exact ⟨rfl, hleft, hmoved⟩

/-- A read exhausts the bytes if it takes what has been gathered for it and reports an offset. -/
theorem exhausts_of_taken {pace : Pace} (hpace : pace.HasRoom) (hn : bytes.length < n)
    (h : ∀ s : Stream, (s.fill pace n).unread = bytes → (s.fill pace n).ending = .clean →
      s.offset = offset → r s = .error (.unexpectedEnd reported field)
        { s.fill pace n with unread := [], offset := reported }) :
    r.Exhausts offset bytes field reported := by
  intro s hs hoffset
  obtain ⟨hunread, hending⟩ := hs.fill_of_lt hpace hn
  rw [outcome, after, h s hunread hending hoffset]
  exact ⟨rfl, hs.fill_taken hpace hn reported, rfl⟩

/-- A bulk read moves the offset to the end. -/
theorem exhausts_readAt {pace : Pace} (hpace : pace.HasRoom) (field : String)
    (hn : bytes.length < n) :
    (readAt pace n field).Exhausts offset bytes field (offset + bytes.length) := by
  apply exhausts_of_taken hpace hn
  intro s hunread hending hoffset
  simp [readAt, hunread, hending, hoffset, List.take_of_length_le (Nat.le_of_lt hn),
    Nat.ne_of_lt hn]

/-- An exact read leaves the offset where it was. -/
theorem exhausts_readExact (field : String) (hn : bytes.length < n) :
    (readExact n field).Exhausts offset bytes field offset := by
  apply exhausts_of_taken Pace.hasRoom_whole hn
  intro s hunread hending hoffset
  simp [readExact, exactFailure, hunread, hending, hoffset,
    List.take_of_length_le (Nat.le_of_lt hn), Nat.ne_of_lt hn]

end Reading

/-- A read that has too few bytes takes them all. -/
theorem ReadKind.exhausts_read {kind : ReadKind} {n : Nat} {bytes : List UInt8} (offset : Nat)
    (field : String) (h : bytes.length < kind.size n) :
    (kind.read n field).Exhausts offset bytes field
      (if kind.isExact then offset else offset + bytes.length) := by
  cases kind with
  | skip => exact ((exhausts_readAt Pace.hasRoom_even field h).bind _).bind _
  | exact => exact (exhausts_readExact field h).bind _
  | token =>
    rw [read_token]
    exact (exhausts_readExact field h).bind _
  | bytes => exact (exhausts_readAt Pace.hasRoom_probing field h).bind _
  | words => exact ((exhausts_readAt Pace.hasRoom_probing field h).bind _).bind _
  | ints => exact (((exhausts_readAt Pace.hasRoom_probing field h).bind _).bind _).bind _
  | singles => exact (((exhausts_readAt Pace.hasRoom_probing field h).bind _).bind _).bind _

/-! ### The two positions -/

/-- Of the bytes, so many have been read, and behind the rest the stream simply ends. -/
structure Stream.HasRead (s : Stream) (bytes : List UInt8) (count : Nat) : Prop where
  le_length : count ≤ bytes.length
  delivers : s.Delivers .clean (bytes.drop count)

/-- From one stream to another, `count` bytes that have been read become `count'`.  The offset stays
within them, and with them unless an exact read fails; after any failure, all have been read. -/
structure Stream.Moves (bytes : List UInt8) (s : Stream) (count : Nat) (t : Stream) (count' : Nat)
    (exactFails fails : Prop) : Prop where
  hasRead : t.HasRead bytes count'
  offset_le : s.offset ≤ count → t.offset ≤ count'
  offset_eq : s.offset = count → ¬ exactFails → t.offset = count'
  ended : count = bytes.length ∨ fails → count' = bytes.length

namespace Stream.Moves

variable {bytes : List UInt8} {s t u : Stream} {count count' count'' : Nat}
  {exactFails exactFails' fails fails' : Prop}

theorem refl (hs : s.HasRead bytes count) : Moves bytes s count s count False False where
  hasRead := hs
  offset_le := id
  offset_eq h _ := h
  ended h := h.resolve_right id

theorem trans (hst : Moves bytes s count t count' exactFails fails)
    (htu : Moves bytes t count' u count'' exactFails' fails') :
    Moves bytes s count u count'' (exactFails ∨ exactFails') (fails ∨ fails') where
  hasRead := htu.hasRead
  offset_le h := htu.offset_le (hst.offset_le h)
  offset_eq h hnone := by
    rw [not_or] at hnone
    exact htu.offset_eq (hst.offset_eq h hnone.1) hnone.2
  ended h := by
    rcases h with hall | hfails | hfails'
    · exact htu.ended (.inl (hst.ended (.inl hall)))
    · exact htu.ended (.inl (hst.ended (.inr hfails)))
    · exact htu.ended (.inr hfails')

end Stream.Moves

/-! ### The step -/

/-- A read of so many bytes or words, for a field. -/
structure ReadStep where
  kind : ReadKind
  count : Nat
  field : String
deriving DecidableEq, Repr

namespace ReadStep

/-- The bytes that the step asks for. -/
def size (step : ReadStep) : Nat := step.kind.size step.count

/-- Carries out the step. -/
def read (step : ReadStep) : Reading Found := step.kind.read step.count step.field

/-- The step fails on the stream. -/
def Fails (step : ReadStep) (s : Stream) : Prop := ∃ e, step.read.outcome s = .error e

/-- The step finds the next bytes and moves both positions by their number. -/
structure Slices (step : ReadStep) (s : Stream) (bytes : List UInt8) (count : Nat) : Prop where
  finds : ∃ found, step.read.outcome s = .ok found
    ∧ step.kind.Finds ((bytes.drop count).take step.size) found
  hasRead : (step.read.after s).HasRead bytes (count + step.size)
  offset_eq : (step.read.after s).offset = s.offset + step.size

/-- The step fails with the offset at which it leaves the stream, and everything has been read. -/
structure RunsOut (step : ReadStep) (s : Stream) (bytes : List UInt8) (count : Nat) : Prop where
  fails : step.read.outcome s = .error (.unexpectedEnd (step.read.after s).offset step.field)
  hasRead : (step.read.after s).HasRead bytes bytes.length
  offset_eq : (step.read.after s).offset
    = if step.kind.isExact then s.offset else s.offset + (bytes.length - count)

variable {step : ReadStep} {s : Stream} {bytes : List UInt8} {count : Nat}

/-- The size of a step fits 64 bits only if its count does. -/
theorem toNat_demand (h : step.size < 2 ^ 64) :
    (step.kind.demand (.ofNat step.count)).toNat = step.size := by
  have hcount : (UInt64.ofNat step.count).toNat = step.count := by
    rw [UInt64.toNat_ofNat']
    exact Nat.mod_eq_of_lt (Nat.lt_of_le_of_lt (ReadKind.le_size _ _) h)
  rw [ReadKind.toNat_demand, hcount]
  · rfl
  · rwa [hcount]

/-- A step that has its bytes finds them. -/
theorem slices (hs : s.HasRead bytes count) (h : step.size ≤ bytes.length - count) :
    step.Slices s bytes count := by
  rw [← List.length_drop] at h
  obtain ⟨found, hfinds, hyields⟩ := ReadKind.exists_yields s.offset step.field h
  obtain ⟨houtcome, hleft, hmoved⟩ := hyields hs.delivers rfl
  rw [List.length_drop] at h
  rw [List.drop_drop] at hleft
  have hle := hs.le_length
  exact ⟨⟨found, houtcome, hfinds⟩, ⟨by omega, hleft⟩, hmoved⟩

/-- A step that has too few bytes fails. -/
theorem runsOut (hs : s.HasRead bytes count) (h : bytes.length - count < step.size) :
    step.RunsOut s bytes count := by
  rw [← List.length_drop] at h
  obtain ⟨houtcome, hleft, hmoved⟩ :=
    ReadKind.exhausts_read s.offset step.field h hs.delivers rfl
  rw [← List.drop_length] at hleft
  refine ⟨?_, ⟨Nat.le_refl _, hleft⟩, ?_⟩
  · rw [read, hmoved]
    exact houtcome
  · rw [← List.length_drop]
    exact hmoved

theorem Slices.not_fails (h : step.Slices s bytes count) : ¬ step.Fails s := by
  rintro ⟨e, he⟩
  obtain ⟨found, hfound, -⟩ := h.finds
  rw [hfound] at he
  cases he

/-- What a step does to the two positions. -/
theorem exists_moves (step : ReadStep) (hs : s.HasRead bytes count) :
    ∃ count', Stream.Moves bytes s count (step.read.after s) count'
      (step.kind.isExact ∧ step.Fails s) (step.Fails s) := by
  rcases Nat.lt_or_ge (bytes.length - count) step.size with hlt | hge
  · have h := runsOut hs hlt
    refine ⟨bytes.length, h.hasRead, ?_, ?_, fun _ => rfl⟩
    · intro hle
      rw [h.offset_eq]
      have := hs.le_length
      split <;> omega
    · -- Only an exact read leaves the offset behind what it has taken.
      intro heq hnone
      have hbulk : ¬ step.kind.isExact := fun hexact => hnone ⟨hexact, _, h.fails⟩
      rw [h.offset_eq, if_neg hbulk, heq]
      exact Nat.add_sub_cancel' hs.le_length
  · have h := slices hs hge
    refine ⟨count + step.size, h.hasRead, ?_, ?_, ?_⟩
    · intro hle
      rw [h.offset_eq]
      exact Nat.add_le_add_right hle _
    · intro heq _
      rw [h.offset_eq, heq]
    · rintro (hall | hfails)
      · omega
      · exact absurd hfails h.not_fails

end ReadStep

/-! ### The run -/

namespace Stream

/-- The stream behind some steps; a failure does not end them. -/
def afterSteps (s : Stream) : List ReadStep → Stream
  | [] => s
  | step :: rest => (step.read.after s).afterSteps rest

/-- Each of some steps with the stream that it meets. -/
def meetings (s : Stream) : List ReadStep → List (ReadStep × Stream)
  | [] => []
  | step :: rest => (step, s) :: (step.read.after s).meetings rest

/-- One of some steps fails. -/
def Fails (s : Stream) (steps : List ReadStep) : Prop :=
  ∃ x ∈ s.meetings steps, x.1.Fails x.2

/-- An exact read among some steps fails. -/
def FailsExactly (s : Stream) (steps : List ReadStep) : Prop :=
  ∃ x ∈ s.meetings steps, x.1.kind.isExact ∧ x.1.Fails x.2

/-- What some steps do to the two positions. -/
theorem exists_moves {s : Stream} {bytes : List UInt8} {count : Nat} (hs : s.HasRead bytes count)
    (steps : List ReadStep) : ∃ count', Moves bytes s count (s.afterSteps steps) count'
      (s.FailsExactly steps) (s.Fails steps) := by
  induction steps generalizing s count with
  | nil =>
    simp only [FailsExactly, Fails, meetings, List.not_mem_nil, false_and, exists_false]
    exact ⟨count, .refl hs⟩
  | cons step rest ih =>
    obtain ⟨middle, hstep⟩ := step.exists_moves hs
    obtain ⟨count', hrest⟩ := ih hstep.hasRead
    refine ⟨count', ?_⟩
    -- One of the steps fails if the first does or one behind it.
    simp only [FailsExactly, Fails, meetings, List.mem_cons, or_and_right, exists_or,
      exists_eq_left]
    exact hstep.trans hrest

end Stream

/-- **Reads give slices of the bytes.**  Let a stream deliver some bytes, in pieces of any size, and
then simply end.  Behind any steps, some of which may have failed, so many bytes have been read, and
the offset is not above their number, nor below it unless an exact read has failed.  The next step
finds just the slice that it asks for if there are so many bytes left, and otherwise it runs out;
once a step has failed, none are left for it.  Its size does not wrap in 64 bits if it fits them. -/
theorem slices_of_reads {start : Stream} {bytes : List UInt8} (hstart : start.Delivers .clean bytes)
    (hoffset : start.offset = 0) (before : List ReadStep) (step : ReadStep) :
    ∃ count, (start.afterSteps before).HasRead bytes count
      ∧ (start.afterSteps before).offset ≤ count ∧ count ≤ bytes.length
      ∧ (¬ start.FailsExactly before → (start.afterSteps before).offset = count)
      ∧ (step.size ≤ bytes.length - count → step.Slices (start.afterSteps before) bytes count)
      ∧ (bytes.length - count < step.size → step.RunsOut (start.afterSteps before) bytes count)
      ∧ (start.Fails before → count = bytes.length
        ∧ (0 < step.size → step.RunsOut (start.afterSteps before) bytes count))
      ∧ (step.size < 2 ^ 64 → (step.kind.demand (.ofNat step.count)).toNat = step.size) := by
  have hnone : start.HasRead bytes 0 := ⟨Nat.zero_le _, hstart⟩
  obtain ⟨count, hmoves⟩ := Stream.exists_moves hnone before
  have hread := hmoves.hasRead
  refine ⟨count, hread, hmoves.offset_le (Nat.le_of_eq hoffset), hread.le_length,
    hmoves.offset_eq hoffset, ReadStep.slices hread, ReadStep.runsOut hread, ?_, ?_⟩
  · intro hfails
    have hall := hmoves.ended (.inr hfails)
    refine ⟨hall, fun hpos => ReadStep.runsOut hread ?_⟩
    rwa [hall, Nat.sub_self]
  · exact ReadStep.toNat_demand

/-- A step that passes over nothing, two integers and a code. -/
def shortSteps : List ReadStep :=
  [⟨.skip, 0, "separator"⟩, ⟨.ints, 2, "header fields"⟩, ⟨.token, 4, "variable code"⟩]

/-- The bytes of two integers, and two more. -/
def shortBytes : List UInt8 := [0, 0, 0, 2, 0xff, 0xff, 0xff, 0xfe, 0x51, 0x4f]

/-- The code is cut after two bytes, which the offset leaves out, and nothing is left for the words,
whose bytes are still counted in 64 bits. -/
theorem slices_of_shortSteps :
    (Stream.of (.ofBytes shortBytes)).Delivers .clean shortBytes
      ∧ (Stream.of (.ofBytes shortBytes)).FailsExactly shortSteps
      ∧ ((Stream.of (.ofBytes shortBytes)).afterSteps shortSteps).offset = 8
      ∧ ((Stream.of (.ofBytes shortBytes)).afterSteps shortSteps).HasRead shortBytes 10
      ∧ ReadStep.RunsOut ⟨.words, 2 ^ 61, "variable counts"⟩
        ((Stream.of (.ofBytes shortBytes)).afterSteps shortSteps) shortBytes 10
      ∧ (ReadKind.words.demand (.ofNat (2 ^ 61))).toNat = 2 ^ 63 := by
  have hstart := Stream.delivers_of (.ofBytes shortBytes)
  have hfails : ReadStep.Fails ⟨.token, 4, "variable code"⟩
      ((Stream.of (.ofBytes shortBytes)).afterSteps (shortSteps.take 2)) := ⟨_, rfl⟩
  have hmem : (⟨.token, 4, "variable code"⟩,
      (Stream.of (.ofBytes shortBytes)).afterSteps (shortSteps.take 2))
        ∈ (Stream.of (.ofBytes shortBytes)).meetings shortSteps :=
    .tail _ (.tail _ (.head _))
  obtain ⟨count, hread, -, -, -, -, -, hended, hdemand⟩ :=
    slices_of_reads hstart rfl shortSteps ⟨.words, 2 ^ 61, "variable counts"⟩
  obtain ⟨rfl, hruns⟩ := hended ⟨_, hmem, hfails⟩
  exact ⟨hstart, ⟨_, hmem, rfl, hfails⟩, rfl, hread, hruns (by decide), hdemand (by decide)⟩

end ReservoirPlot
