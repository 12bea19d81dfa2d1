/-
ReservoirPlot/Plot/Stream.lean

A byte stream that is read from front to back.  The stream is the list of bytes
at hand and not yet read, the supply from which more may come, and an offset for
error messages.  A read is a function from streams to streams that may also fail;
the stream after a failure is kept, so reading can go on and its position can be
asked for.

A read first gathers the bytes that it is missing (`Stream.fill`).  The stream of
a source has all its bytes at hand, so there is nothing to gather.

There are two kinds of reads, and they treat the end of the stream differently:

* an exact read (`readExact`, `readToken`) wants all its bytes or none.  If it
  falls short it takes what is left without moving the offset, and a source that
  broke off counts as the end of the stream;
* a bulk read (`skip`, `readBytes`, `readWords`, `readInts`, `readSingles`) moves
  the offset by the bytes that were there before it reports the end, and every
  failure of the source is reported as such.

Words are big-endian throughout.
-/
import ReservoirPlot.Binary.Binary32
import ReservoirPlot.Plot.DecodeError
import ReservoirPlot.Plot.Header
import ReservoirPlot.Plot.Supply

namespace ReservoirPlot

/-! ### Words -/

/-- The four bytes of a word, the highest first. -/
def wordBytes (w : UInt32) : List UInt8 :=
  [UInt8.ofNat (w.toNat / 0x1000000), UInt8.ofNat (w.toNat / 0x10000),
   UInt8.ofNat (w.toNat / 0x100), UInt8.ofNat w.toNat]

/-- The word with the given bytes, the highest first. -/
def wordOfBytes (a b c d : UInt8) : UInt32 :=
  UInt32.ofNat (((a.toNat * 0x100 + b.toNat) * 0x100 + c.toNat) * 0x100 + d.toNat)

/-- Bytes taken four at a time as words; up to three at the end are left out. -/
def wordsOfBytes : List UInt8 → List UInt32
  | a :: b :: c :: d :: rest => wordOfBytes a b c d :: wordsOfBytes rest
  | _ => []

@[simp] theorem length_wordBytes (w : UInt32) : (wordBytes w).length = 4 := rfl

/-- Four bytes are read back from the word that they make. -/
theorem wordBytes_wordOfBytes (a b c d : UInt8) :
    wordBytes (wordOfBytes a b c d) = [a, b, c, d] := by
  have ha := a.toNat_lt
  have hb := b.toNat_lt
  have hc := c.toNat_lt
  have hd := d.toNat_lt
  simp only [wordBytes, wordOfBytes, List.cons.injEq, and_true, ← UInt8.toNat_inj,
    UInt8.toNat_ofNat', UInt32.toNat_ofNat']
  omega

/-- A word is made again from its bytes. -/
theorem wordsOfBytes_wordBytes (w : UInt32) (rest : List UInt8) :
    wordsOfBytes (wordBytes w ++ rest) = w :: wordsOfBytes rest := by
  have hw := w.toNat_lt
  simp only [wordBytes, List.cons_append, List.nil_append, wordsOfBytes, List.cons.injEq,
    and_true, wordOfBytes, ← UInt32.toNat_inj, UInt8.toNat_ofNat', UInt32.toNat_ofNat']
  omega

/-- There are as many words as there are groups of four bytes. -/
theorem length_wordsOfBytes (bytes : List UInt8) :
    (wordsOfBytes bytes).length = bytes.length / 4 := by
  fun_induction wordsOfBytes bytes with
  | case1 a b c d rest ih => simp only [List.length_cons, ih]; omega
  | case2 bytes h =>
    match bytes, h with
    | [], _ => rfl
    | [_], _ => simp
    | [_, _], _ => simp
    | [_, _, _], _ => simp
    | a :: b :: c :: d :: rest, h => exact absurd rfl (h a b c d rest)

/-! ### The stream -/

/-- What the decoder has recognised on its way. -/
inductive Progress
  | header (h : Header)
  | codes (name : ClassName) (count : Nat)
  | stop (offset : Nat)
deriving DecidableEq, Repr

/-- A byte stream in the course of being read. -/
structure Stream where
  /-- The bytes at hand. -/
  unread : List UInt8
  supply : Supply
  offset : Nat
  /-- What has been recognised so far, the latest first. -/
  progress : List Progress
deriving DecidableEq, Repr

namespace Stream

/-- The stream of a source, at its first byte. -/
def of (source : Source) : Stream :=
  ⟨source.bytes, .ended source.ending, 0, []⟩

/-- The stream of what a file holds, at its first byte.  A compressed file that cannot be read
to its end is not expanded at all. -/
def ofFile (c : Compression) (isBuffered : Bool) (file : Source) : Stream :=
  match Expansion.of? c ⟨file.bytes, if isBuffered then some 0 else none⟩ with
  | none => of file
  | some x =>
    if file.ending = .clean then ⟨[], .ofExpansion x file.bytes.length, 0, []⟩
    else of ⟨[], file.ending⟩

/-- How many bytes can still be read, at most. -/
def remaining (s : Stream) : Nat := s.unread.length + s.supply.bound

/-- The stream with the next `n` bytes at hand, as far as there are so many. -/
def fill (pace : Pace) (n : Nat) (s : Stream) : Stream :=
  match s.supply with
  | .ended _ => s
  | .expanding x bound =>
    let (gathered, supply) := (Supply.expanding x bound).gather pace (n - s.unread.length)
    { s with unread := s.unread ++ gathered, supply := supply }

/-- How the supply ends, as far as it is known. -/
def ending (s : Stream) : Ending :=
  match s.supply with
  | .ended e => e
  | .expanding .. => .clean

/-- Where no more can come, all is at hand. -/
@[simp] theorem fill_ended (pace : Pace) (n : Nat) (unread : List UInt8) (e : Ending)
    (offset : Nat) (progress : List Progress) :
    fill pace n ⟨unread, .ended e, offset, progress⟩ = ⟨unread, .ended e, offset, progress⟩ := rfl

/-- Nothing is left to gather for the stream of a source. -/
theorem fill_of_supply_eq {s : Stream} {e : Ending} (pace : Pace) (n : Nat)
    (h : s.supply = .ended e) : s.fill pace n = s := by
  obtain ⟨unread, supply, offset, progress⟩ := s
  cases h
  rfl

/-- Gathering takes from the supply what it puts at hand. -/
theorem remaining_fill_le (pace : Pace) (n : Nat) (s : Stream) :
    (s.fill pace n).remaining ≤ s.remaining := by
  obtain ⟨unread, supply, offset, progress⟩ := s
  cases supply with
  | ended e => exact Nat.le_refl _
  | expanding x bound =>
    have := Supply.bound_gather_le pace (n - unread.length) (.expanding x bound)
    simp only [fill, remaining, List.length_append]
    omega

@[simp] theorem offset_fill (pace : Pace) (n : Nat) (s : Stream) :
    (s.fill pace n).offset = s.offset := by
  obtain ⟨unread, supply, offset, progress⟩ := s
  cases supply <;> rfl

end Stream

/-- A read: from a stream to a value or an error, and the stream afterwards. -/
abbrev Reading := EStateM DecodeError Stream

namespace Reading

/-! ### Exact reads -/

/-- Why an exact read fell short: a source that broke off counts as the end. -/
def exactFailure (s : Stream) (field : String) : DecodeError :=
  match s.ending with
  | .broken => .unreadable
  | _ => .unexpectedEnd s.offset field

/-- The next `n` bytes, all or none.  A failure takes what is left and leaves the
offset where it was. -/
def readExact (n : Nat) (field : String) : Reading (List UInt8) := fun s =>
  let s := s.fill .whole n
  let taken := s.unread.take n
  if taken.length = n then
    .ok taken { s with unread := s.unread.drop n, offset := s.offset + n }
  else .error (exactFailure s field) { s with unread := [] }

/-- The next token. -/
def readToken (width : Nat) (field : String) : Reading (Token width) := fun s =>
  let s := s.fill .whole width
  let taken := s.unread.take width
  if h : taken.length = width then
    .ok ⟨taken, h⟩ { s with unread := s.unread.drop width, offset := s.offset + width }
  else .error (exactFailure s field) { s with unread := [] }

/-! ### Bulk reads -/

/-- The next `n` bytes, gathered at a pace.  At the end of the stream a failure takes what is
left and moves the offset by it; a failure of the source takes what is left and leaves the
offset. -/
def readAt (pace : Pace) (n : Nat) (field : String) : Reading (List UInt8) := fun s =>
  let s := s.fill pace n
  let taken := s.unread.take n
  if taken.length = n then
    .ok taken { s with unread := s.unread.drop n, offset := s.offset + n }
  else match s.ending with
    | .clean =>
      let offset := s.offset + taken.length
      .error (.unexpectedEnd offset field) { s with unread := [], offset := offset }
    | _ => .error .unreadable { s with unread := [] }

/-- The next `n` bytes. -/
def readBytes (n : Nat) (field : String) : Reading (List UInt8) := readAt .probing n field

/-- Passes over the next `n` bytes. -/
def skip (n : Nat) (field : String) : Reading Unit := do
  let _ ← readAt .even n field

/-- The next `n` words. -/
def readWords (n : Nat) (field : String) : Reading (List UInt32) := do
  let bytes ← readBytes (4 * n) field
  return wordsOfBytes bytes

/-- The next `n` words as signed integers. -/
def readInts (n : Nat) (field : String) : Reading (List Int32) := do
  let words ← readWords n field
  return words.map Int32.ofUInt32

/-- The next `n` words as the bits of single-precision numbers. -/
def readSingles (n : Nat) (field : String) : Reading (List Binary32) := do
  let words ← readWords n field
  return words.map Binary32.mk

/-! ### Around reads -/

/-- The read with every failure of it reported as the given one. -/
def failingAs {α : Type} (e : DecodeError) (r : Reading α) : Reading α := fun s =>
  match r s with
  | .ok a s => .ok a s
  | .error _ s => .error e s

/-- Records what has been recognised. -/
def report (p : Progress) : Reading Unit := fun s =>
  .ok () { s with progress := p :: s.progress }

/-- Fails with a fault in the framing. -/
def malformed {α : Type} (cause : Malformation) : Reading α :=
  throw (.malformed cause)

/-- The value or the error of a read. -/
def outcome {α : Type} (r : Reading α) (s : Stream) : Except DecodeError α :=
  match r s with
  | .ok a _ => .ok a
  | .error e _ => .error e

/-- The stream after a read, whether it succeeded or not. -/
def after {α : Type} (r : Reading α) (s : Stream) : Stream :=
  match r s with
  | .ok _ s => s
  | .error _ s => s

/-! ### What reads do to a stream -/

/-- A bulk read succeeds exactly when its bytes are there, and then takes them. -/
theorem readAt_of_le {pace : Pace} {n : Nat} {field : String} {s t : Stream}
    (ht : s.fill pace n = t) (h : n ≤ t.unread.length) :
    readAt pace n field s
      = .ok (t.unread.take n) { t with unread := t.unread.drop n, offset := t.offset + n } := by
  simp [readAt, ht, List.length_take, Nat.min_eq_left h]

/-- An exact read succeeds exactly when its bytes are there, and then takes them. -/
theorem readExact_of_le {n : Nat} {field : String} {s t : Stream}
    (ht : s.fill .whole n = t) (h : n ≤ t.unread.length) :
    readExact n field s
      = .ok (t.unread.take n) { t with unread := t.unread.drop n, offset := t.offset + n } := by
  simp [readExact, ht, List.length_take, Nat.min_eq_left h]

/-- A successful token read has taken as many bytes as the token is wide. -/
theorem unread_of_readToken {width : Nat} {field : String} {s s' : Stream} {t : Token width}
    (h : readToken width field s = .ok t s') :
    (s.fill .whole width).unread = t.bytes ++ s'.unread
      ∧ s'.supply = (s.fill .whole width).supply ∧ s'.offset = s.offset + width := by
  simp only [readToken] at h
  split at h
  · cases h; simp
  · cases h

/-- A token takes its width from what can still be read. -/
theorem remaining_of_readToken {width : Nat} {field : String} {s s' : Stream} {t : Token width}
    (h : readToken width field s = .ok t s') : s'.remaining + width ≤ s.remaining := by
  obtain ⟨hunread, hsupply, _⟩ := unread_of_readToken h
  have hfill := Stream.remaining_fill_le .whole width s
  simp only [Stream.remaining, hunread, ← hsupply, List.length_append, Token.length_eq] at hfill ⊢
  omega

/-- A read that never gives bytes back. -/
def Consumes {α : Type} (r : Reading α) : Prop :=
  ∀ s a s', r s = .ok a s' → s'.remaining ≤ s.remaining

theorem consumes_pure {α : Type} (a : α) : Consumes (pure a) := by
  intro s b s' h; cases h; exact Nat.le_refl _

theorem consumes_throw {α : Type} (e : DecodeError) : Consumes (throw e : Reading α) := by
  intro s b s' h; cases h

theorem consumes_bind {α β : Type} {r : Reading α} {f : α → Reading β} (hr : Consumes r)
    (hf : ∀ a, Consumes (f a)) : Consumes (r >>= f) := by
  intro s b s' h
  simp only [bind, EStateM.bind] at h
  split at h
  · next a t ht => exact Nat.le_trans (hf a t b s' h) (hr s a t ht)
  · cases h

theorem consumes_readAt (pace : Pace) (n : Nat) (field : String) :
    Consumes (readAt pace n field) := by
  intro s b s' h
  have hfill := Stream.remaining_fill_le pace n s
  simp only [readAt] at h
  split at h
  · cases h
    simp only [Stream.remaining, List.length_drop] at hfill ⊢
    omega
  · split at h <;> cases h

theorem consumes_skip (n : Nat) (field : String) : Consumes (skip n field) :=
  consumes_bind (consumes_readAt _ n field) fun _ => consumes_pure _

theorem consumes_readSingles (n : Nat) (field : String) : Consumes (readSingles n field) :=
  consumes_bind (consumes_bind (consumes_readAt _ _ field) fun _ => consumes_pure _)
    fun _ => consumes_pure _

theorem consumes_readToken (width : Nat) (field : String) :
    Consumes (readToken width field) := by
  intro s b s' h
  have := remaining_of_readToken h
  omega

end Reading

end ReservoirPlot
