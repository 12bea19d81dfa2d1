/-
ReservoirPlot/Proofs/Plot/Verdict.lean

Which bytes a verdict rests on.  A stream is read from front to back, so a read
that comes to a verdict, be it a value or an error, has seen the bytes that it
took and none behind them; and had one of these been missing, the read would have
said so.  `Reading.Needs` states both at once:

* settled: on every stream that begins with the bytes, the read takes just these
  and comes to the verdict;
* short: on every stream of fewer of them it runs out of bytes, and reports where
  (`Shortage`).

`Decides` says of a read at an offset that the bytes there either contain what it
needs or are too few.  It goes from the steps of the decoder to the whole file
(`compositional_decides`), and how the source ends is carried along everywhere.

Main result: `decode_eq_of_take_eq`.
-/
import ReservoirPlot.Proofs.Plot.Composition

namespace ReservoirPlot

open Layout Reading

/-! ### Running out of bytes -/

/-- How a read ran out of bytes. -/
inductive Shortage
  /-- Before the type tag was complete, where every failure means the same. -/
  | inTypeTag
  /-- The offset and the field that are reported, and whether the read was an exact one. -/
  | inField (offset : Nat) (field : String) (isExact : Bool)

namespace Shortage

/-- The error of the shortage, which depends on how the source ends. -/
def error : Shortage → Ending → DecodeError
  | inTypeTag, _ => .malformed .unverified
  | inField offset field _, .clean => .unexpectedEnd offset field
  | inField offset field true, .truncated => .unexpectedEnd offset field
  | inField _ _ false, .truncated => .unreadable
  | inField .., .broken => .unreadable

/-- The bytes ran out at a position.  A bulk read reports just this position and an exact one its
own start, which is less than the width of a name away. -/
def IsAt (position : Nat) : Shortage → Prop
  | inTypeTag => position < 16
  | inField offset _ _ => offset ≤ position ∧ position < offset + 8

end Shortage

/-- The errors that say that the bytes ran out. -/
def DecodeError.IsShortage : DecodeError → Prop
  | .malformed .unverified => True
  | .unexpectedEnd .. => True
  | .unreadable => True
  | _ => False

namespace Reading

variable {α β : Type} {r : Reading α} {f : α → Reading β} {offset : Nat}

/-! ### The verdict of a sequence -/

theorem outcome_bind (r : Reading α) (f : α → Reading β) (s : Stream) :
    (r >>= f).outcome s = match r.outcome s with
      | .ok a => (f a).outcome (r.after s)
      | .error e => .error e := by
  simp only [outcome, after, bind, EStateM.bind]
  rcases r s with ⟨a, t⟩ | ⟨e, t⟩ <;> rfl

theorem after_bind (r : Reading α) (f : α → Reading β) (s : Stream) :
    (r >>= f).after s = match r.outcome s with
      | .ok a => (f a).after (r.after s)
      | .error _ => r.after s := by
  simp only [outcome, after, bind, EStateM.bind]
  rcases r s with ⟨a, t⟩ | ⟨e, t⟩ <;> rfl

/-! ### What a read needs -/

/-- At the offset, just these bytes are too few for the read. -/
def FallsShort (r : Reading α) (offset : Nat) (bytes : List UInt8) : Prop :=
  ∃ x : Shortage, x.IsAt (offset + bytes.length) ∧ ∀ {s : Stream} {e : Ending},
    s.supply = .ended e → s.offset = offset → s.unread = bytes → r.outcome s = .error (x.error e)

/-- At the offset, the read needs the bytes for its verdict, and no others. -/
structure Needs (r : Reading α) (offset : Nat) (bytes : List UInt8) (v : Except DecodeError α) :
    Prop where
  settled : ∀ {s : Stream} {rest : List UInt8}, s.AtHand → s.offset = offset →
    s.unread = bytes ++ rest → r.outcome s = v ∧ s.Takes bytes (r.after s)
  short : ∀ {part : List UInt8}, part <+: bytes → part ≠ bytes → r.FallsShort offset part
  /-- A verdict is not about missing bytes. -/
  sound : ∀ {e : DecodeError}, v = .error e → ¬ e.IsShortage

/-- At the offset, the bytes begin with what the read needs, or are too few for it. -/
def Decides (r : Reading α) (offset : Nat) (bytes : List UInt8) : Prop :=
  (∃ front v, front <+: bytes ∧ r.Needs offset front v) ∨ r.FallsShort offset bytes

/-- A read that decides on all bytes. -/
def Decisive (r : Reading α) : Prop :=
  ∀ offset bytes, r.Decides offset bytes

theorem Needs.decides {front rest : List UInt8} {v : Except DecodeError α}
    (h : r.Needs offset front v) : r.Decides offset (front ++ rest) :=
  .inl ⟨front, v, List.prefix_append front rest, h⟩

/-! ### Sequences -/

/-- Where the first read falls short, so does the sequence. -/
theorem FallsShort.bind {bytes : List UInt8} (h : r.FallsShort offset bytes)
    (f : α → Reading β) : (r >>= f).FallsShort offset bytes := by
  obtain ⟨x, hx, hshort⟩ := h
  refine ⟨x, hx, ?_⟩
  intro s e hs hoffset hunread
  rw [outcome_bind, hshort hs hoffset hunread]

/-- Where the second read falls short, so does the sequence. -/
theorem Needs.bind_fallsShort {front rest : List UInt8} {a : α}
    (hr : r.Needs offset front (.ok a)) (hf : (f a).FallsShort (offset + front.length) rest) :
    (r >>= f).FallsShort offset (front ++ rest) := by
  obtain ⟨x, hx, hshort⟩ := hf
  refine ⟨x, ?_, ?_⟩
  · rwa [List.length_append, ← Nat.add_assoc]
  · intro s e hs hoffset hunread
    obtain ⟨hvalue, htakes⟩ := hr.settled ⟨e, hs⟩ hoffset hunread
    rw [outcome_bind, hvalue]
    exact hshort (htakes.supply.trans hs) (by rw [htakes.offset, hoffset])
      (htakes.unread_eq hunread)

/-- A sequence needs what its reads need. -/
theorem Needs.bind {front back : List UInt8} {a : α} {v : Except DecodeError β}
    (hr : r.Needs offset front (.ok a)) (hf : (f a).Needs (offset + front.length) back v) :
    (r >>= f).Needs offset (front ++ back) v where
  settled := by
    intro s rest hs hoffset hunread
    rw [List.append_assoc] at hunread
    obtain ⟨hvalue, htakes⟩ := hr.settled hs hoffset hunread
    obtain ⟨hverdict, htakes'⟩ := hf.settled (htakes.atHand hs) (by rw [htakes.offset, hoffset])
      (htakes.unread_eq hunread)
    rw [outcome_bind, after_bind, hvalue]
    exact ⟨hverdict, htakes.trans htakes'⟩
  short := by
    intro part hpart hne
    by_cases hfront : front <+: part
    · obtain ⟨more, rfl⟩ := hfront
      have hmore : more <+: back := (List.prefix_append_right_inj front).mp hpart
      exact hr.bind_fallsShort (hf.short hmore fun h => hne (h ▸ rfl))
    · -- What ends before the second read begins is too short for the first.
      have hpart' : part <+: front :=
        (List.prefix_or_prefix_of_prefix hpart (List.prefix_append front back)).resolve_right hfront
      exact (hr.short hpart' fun h => hfront (h ▸ List.prefix_refl part)).bind f
  sound := hf.sound

/-- An error of the first read is the verdict of the sequence. -/
theorem Needs.bind_error {front : List UInt8} {e : DecodeError}
    (hr : r.Needs offset front (.error e)) (f : α → Reading β) :
    (r >>= f).Needs offset front (.error e) where
  settled := by
    intro s rest hs hoffset hunread
    obtain ⟨herror, htakes⟩ := hr.settled hs hoffset hunread
    rw [outcome_bind, after_bind, herror]
    exact ⟨rfl, htakes⟩
  short := fun hpart hne => (hr.short hpart hne).bind f
  sound := by
    rintro _ ⟨⟩
    exact hr.sound rfl

/-- A sequence decides behind a first read that has what it needs, if the second read does. -/
theorem Needs.bind_decides {front rest : List UInt8} {a : α} (hr : r.Needs offset front (.ok a))
    (hf : (f a).Decides (offset + front.length) rest) :
    (r >>= f).Decides offset (front ++ rest) := by
  rcases hf with ⟨back, v, hback, hneeds⟩ | hshort
  · exact .inl ⟨front ++ back, v, (List.prefix_append_right_inj front).mpr hback, hr.bind hneeds⟩
  · exact .inr (hr.bind_fallsShort hshort)

/-- A sequence decides where its first read does, if the second decides wherever it begins. -/
theorem Decides.bind {bytes : List UInt8} (hr : r.Decides offset bytes)
    (hf : ∀ a n, (f a).Decides (offset + n) (bytes.drop n)) : (r >>= f).Decides offset bytes := by
  rcases hr with ⟨front, v, ⟨rest, rfl⟩, hneeds⟩ | hshort
  · rcases v with e | a
    · exact (hneeds.bind_error f).decides
    · have hback := hf a front.length
      rw [List.drop_left] at hback
      exact hneeds.bind_decides hback
  · exact .inr (hshort.bind f)

/-- What a read decides rests on what it does at the offset. -/
theorem Decides.congr {bytes : List UInt8} {r' : Reading α} (hr : r.Decides offset bytes)
    (h : ∀ s : Stream, s.offset = offset → r' s = r s) : r'.Decides offset bytes := by
  have houtcome : ∀ s : Stream, s.offset = offset → r'.outcome s = r.outcome s :=
    fun s hoffset => by rw [outcome, outcome, h s hoffset]
  have hafter : ∀ s : Stream, s.offset = offset → r'.after s = r.after s :=
    fun s hoffset => by rw [after, after, h s hoffset]
  have hfalls : ∀ {part}, r.FallsShort offset part → r'.FallsShort offset part := by
    rintro part ⟨x, hx, hshort⟩
    refine ⟨x, hx, ?_⟩
    intro s e hs hoffset hunread
    rw [houtcome s hoffset]
    exact hshort hs hoffset hunread
  rcases hr with ⟨front, v, hfront, hneeds⟩ | hshort
  · refine .inl ⟨front, v, hfront, ?_, fun hpart hne => hfalls (hneeds.short hpart hne),
      hneeds.sound⟩
    intro s rest hs hoffset hunread
    rw [houtcome s hoffset, hafter s hoffset]
    exact hneeds.settled hs hoffset hunread
  · exact .inr (hfalls hshort)

/-! ### Reads without bytes -/

/-- A read that takes nothing decides on all bytes. -/
theorem decides_of_takes_nil (v : Except DecodeError α)
    (h : ∀ s : Stream, s.offset = offset → r.outcome s = v ∧ s.Takes [] (r.after s))
    (hv : ∀ {e}, v = .error e → ¬ e.IsShortage) (bytes : List UInt8) : r.Decides offset bytes := by
  refine .inl ⟨[], v, List.nil_prefix, ?_, ?_, hv⟩
  · exact fun _ hoffset _ => h _ hoffset
  · exact fun hpart hne => absurd (List.prefix_nil.mp hpart) hne

theorem decisive_pure (a : α) : (pure a : Reading α).Decisive := fun _ =>
  decides_of_takes_nil (.ok a) (fun s _ => ⟨rfl, .refl s⟩) nofun

theorem decisive_throw {e : DecodeError} (he : ¬ e.IsShortage) :
    (throw e : Reading α).Decisive := fun _ =>
  decides_of_takes_nil (.error e) (fun s _ => ⟨rfl, .refl s⟩) (by rintro _ ⟨⟩; exact he)

theorem decisive_malformed (cause : Malformation) (h : cause ≠ .unverified) :
    (malformed cause : Reading α).Decisive := by
  apply decisive_throw
  intro hshortage
  cases cause with
  | unverified => exact h rfl
  | _ => exact hshortage

theorem decisive_report (p : Progress) : (report p).Decisive := fun _ =>
  decides_of_takes_nil (.ok ()) (fun _ _ => ⟨rfl, rfl, rfl, rfl⟩) nofun

/-! ### Reads of bytes -/

/-- A read that recognises the bytes of a value settles on it. -/
theorem Recognizes.settled {G : Grammar α} (h : Recognizes r G) {bytes rest : List UInt8} {a : α}
    (hG : G bytes a) {s : Stream} (hs : s.AtHand) (hunread : s.unread = bytes ++ rest) :
    r.outcome s = .ok a ∧ s.Takes bytes (r.after s) := by
  obtain ⟨t, hr, htakes⟩ := h.complete hs hG hunread
  rw [outcome, after, hr]
  exact ⟨rfl, htakes⟩

/-- A bulk read falls short where the bytes end. -/
theorem fallsShort_readAt {pace : Pace} {n : Nat} {field : String} {bytes : List UInt8}
    (h : bytes.length < n) : (readAt pace n field).FallsShort offset bytes := by
  refine ⟨.inField (offset + bytes.length) field false, ⟨Nat.le_refl _, by omega⟩, ?_⟩
  rintro ⟨unread, supply, _, progress⟩ e rfl rfl rfl
  have htake : unread.take n = unread := List.take_of_length_le (Nat.le_of_lt h)
  have hne : unread.length ≠ n := Nat.ne_of_lt h
  cases e <;> simp [outcome, readAt, htake, hne, Stream.ending, Shortage.error]

/-- The read of a name falls short at the name's start. -/
theorem fallsShort_readToken {width : Nat} (hwidth : width ≤ 8) {field : String}
    {bytes : List UInt8} (h : bytes.length < width) :
    (readToken width field).FallsShort offset bytes := by
  refine ⟨.inField offset field true, ⟨Nat.le_add_right _ _, by omega⟩, ?_⟩
  rintro ⟨unread, supply, _, progress⟩ e rfl rfl rfl
  have htake : unread.take width = unread := List.take_of_length_le (Nat.le_of_lt h)
  have hne : unread.length ≠ width := Nat.ne_of_lt h
  cases e <;>
    simp [outcome, readToken, exactFailure, htake, hne, Stream.ending, Shortage.error]

/-- Fewer bytes than a proper beginning has. -/
theorem length_lt_of_beginning {part bytes : List UInt8} (hpart : part <+: bytes)
    (hne : part ≠ bytes) : part.length < bytes.length :=
  Nat.lt_of_le_of_ne hpart.length_le fun h => hne (hpart.eq_of_length h)

theorem needs_readAt (pace : Pace) (field : String) (bytes : List UInt8) :
    (readAt pace bytes.length field).Needs offset bytes (.ok bytes) where
  settled := fun hs _ hunread => (recognizes_readAt pace _ field).settled ⟨rfl, rfl⟩ hs hunread
  short := fun hpart hne => fallsShort_readAt (length_lt_of_beginning hpart hne)
  sound := nofun

theorem needs_readToken {width : Nat} (hwidth : width ≤ 8) (field : String) (t : Token width) :
    (readToken width field).Needs offset t.bytes (.ok t) where
  settled := fun hs _ hunread => (recognizes_readToken width field).settled rfl hs hunread
  short := by
    intro part hpart hne
    have hlt := length_lt_of_beginning hpart hne
    rw [t.length_eq] at hlt
    exact fallsShort_readToken hwidth hlt
  sound := nofun

/-- Bytes that are not too few begin with as many as are wanted. -/
theorem exists_front {n : Nat} {bytes : List UInt8} (h : n ≤ bytes.length) :
    ∃ front rest, bytes = front ++ rest ∧ front.length = n :=
  ⟨bytes.take n, bytes.drop n, (List.take_append_drop n bytes).symm,
    List.length_take_of_le h⟩

theorem decisive_readAt (pace : Pace) (n : Nat) (field : String) :
    (readAt pace n field).Decisive := by
  intro offset bytes
  rcases Nat.lt_or_ge bytes.length n with hlt | hle
  · exact .inr (fallsShort_readAt hlt)
  · obtain ⟨front, rest, rfl, rfl⟩ := exists_front hle
    exact (needs_readAt pace field front).decides

theorem decides_readToken_bind {width : Nat} (hwidth : width ≤ 8) (field : String)
    {f : Token width → Reading α} {bytes : List UInt8}
    (hf : width ≤ bytes.length → ∀ t, (f t).Decides (offset + width) (bytes.drop width)) :
    (readToken width field >>= f).Decides offset bytes := by
  rcases Nat.lt_or_ge bytes.length width with hlt | hle
  · exact .inr ((fallsShort_readToken hwidth hlt).bind f)
  · obtain ⟨front, rest, rfl, hfront⟩ := exists_front hle
    obtain ⟨t, rfl⟩ := exists_token hfront
    have hback := hf hle t
    rw [List.drop_left' t.length_eq] at hback
    exact (needs_readToken hwidth field t).bind_decides (t.length_eq.symm ▸ hback)

/-- Whether the bytes contain what is needed goes from the steps of the decoder to the whole. -/
theorem compositional_decides : Compositional @Decides where
  value := decisive_pure
  sequence := Decides.bind
  fault := decisive_malformed
  unknownUnits tag := decisive_throw id
  progress := decisive_report
  position h := h.congr fun s hoffset => by subst hoffset; rfl
  passing n field _ offset bytes :=
    (decisive_readAt .even n field offset bytes).bind fun _ _ => decisive_pure _ _ _
  bulk n field _ := decisive_readAt .probing n field
  token hwidth _ := decides_readToken_bind hwidth _

end Reading

/-! ### The type tag -/

/-- Every failure before the type tag is complete is the same. -/
theorem outcome_readTypeTag_of_lt {s : Stream} (hs : s.AtHand) (h : s.unread.length < 16) :
    readTypeTag.outcome s = .error (.malformed .unverified) := by
  rcases hr : readTypeTag s with ⟨tag, t⟩ | ⟨e, t⟩
  · obtain ⟨_, ⟨lead, rfl⟩, htakes⟩ := recognizes_readTypeTag.sound hs hr
    have hlen := congrArg List.length htakes.unread
    simp only [List.length_append, Token.length_eq] at hlen
    omega
  · rw [outcome, hr]
    simp only [readTypeTag, failingAs] at hr
    split at hr
    · cases hr
    · cases hr
      rfl

theorem fallsShort_readTypeTag {bytes : List UInt8} (h : bytes.length < 16) :
    readTypeTag.FallsShort 0 bytes :=
  ⟨.inTypeTag, by rwa [Shortage.IsAt, Nat.zero_add], fun hs _ hunread =>
    outcome_readTypeTag_of_lt ⟨_, hs⟩ (hunread ▸ h)⟩

theorem decides_readTypeTag (bytes : List UInt8) : readTypeTag.Decides 0 bytes := by
  rcases Nat.lt_or_ge bytes.length 16 with hlt | hle
  · exact .inr (fallsShort_readTypeTag hlt)
  · obtain ⟨front, rest, rfl, hfront⟩ := exists_front hle
    obtain ⟨first, last, rfl, hfirst⟩ := exists_front (hfront ▸ (by decide) : 4 ≤ front.length)
    rw [List.length_append, hfirst] at hfront
    obtain ⟨lead, rfl⟩ := exists_token hfirst
    obtain ⟨tag, rfl⟩ := exists_token (show last.length = 12 by omega)
    refine Needs.decides (v := .ok tag) ⟨?_, ?_, nofun⟩
    · exact fun hs _ hunread => recognizes_readTypeTag.settled ⟨lead, rfl⟩ hs hunread
    · intro part hpart hne
      have hlt := length_lt_of_beginning hpart hne
      rw [List.length_append, lead.length_eq, tag.length_eq] at hlt
      exact fallsShort_readTypeTag hlt

/-! ### The whole file -/

theorem decides_readPlot (bytes : List UInt8) : readPlot.Decides 0 bytes :=
  compositional_decides.readPlot_of_typeTag (decides_readTypeTag bytes)

namespace Plot

/-- The offset that decoding has reached when it comes to its verdict. -/
def consumed (bytes : List UInt8) : Nat :=
  (readPlot.after (.of (.ofBytes bytes))).offset

/-- Bytes are decoded as the first of them demand, or they are too few. -/
theorem decode_cases (bytes : List UInt8) :
    (∃ front v, front <+: bytes ∧ readPlot.Needs 0 front v)
    ∨ ∃ x : Shortage, x.IsAt bytes.length ∧ decode (.ofBytes bytes) = .error (x.error .clean) := by
  rcases decides_readPlot bytes with h | ⟨x, hx, hshort⟩
  · exact .inl h
  · rw [Nat.zero_add] at hx
    exact .inr ⟨x, hx, hshort rfl rfl rfl⟩

/-- What the first bytes demand is decoded whatever stands behind them. -/
theorem decode_of_needs {front bytes : List UInt8} {v : Except DecodeError Plot}
    (h : readPlot.Needs 0 front v) (hfront : front <+: bytes) :
    decode (.ofBytes bytes) = v ∧ consumed bytes = front.length := by
  obtain ⟨rest, rfl⟩ := hfront
  obtain ⟨hv, htakes⟩ := h.settled (Stream.atHand_of (.ofBytes (front ++ rest))) rfl rfl
  exact ⟨hv, by rw [consumed, htakes.offset]; exact Nat.zero_add _⟩

/-- Fewer bytes than are needed run out. -/
theorem decode_of_needs_of_ne {front part : List UInt8} {v : Except DecodeError Plot}
    (h : readPlot.Needs 0 front v) (hpart : part <+: front) (hne : part ≠ front) :
    ∃ x : Shortage, x.IsAt part.length ∧ decode (.ofBytes part) = .error (x.error .clean) := by
  obtain ⟨x, hx, hshort⟩ := h.short hpart hne
  rw [Nat.zero_add] at hx
  exact ⟨x, hx, hshort rfl rfl rfl⟩

/-- A plot file is consumed up to its stop tag. -/
theorem consumed_bytes_file (f : PlotFile) (tail : List UInt8) :
    consumed (f.bytes ++ tail) = f.bytes.length := by
  obtain ⟨-, htakes⟩ := recognizes_readPlot.settled ⟨f, rfl, rfl⟩
    (Stream.atHand_of (.ofBytes (f.bytes ++ tail))) rfl
  rw [consumed, htakes.offset]
  exact Nat.zero_add _

/-- Up to the type tag nothing is verified. -/
theorem decode_eq_unverified_iff (bytes : List UInt8) :
    decode (.ofBytes bytes) = .error (.malformed .unverified) ↔ bytes.length < 16 := by
  constructor
  · intro h
    rcases decode_cases bytes with ⟨front, v, hfront, hneeds⟩ | ⟨x, hx, herror⟩
    · rw [(decode_of_needs hneeds hfront).1] at h
      exact absurd trivial (hneeds.sound h)
    · rw [h] at herror
      cases x with
      | inTypeTag => exact hx
      | inField => cases herror
  · intro h
    rw [decode, readPlot, outcome_bind, readHeader, outcome_bind,
      outcome_readTypeTag_of_lt (Stream.atHand_of (.ofBytes bytes)) h]

/-- Bytes that run out behind the type tag are reported near where they end. -/
theorem exists_unexpectedEnd {bytes : List UInt8} {x : Shortage} (hx : x.IsAt bytes.length)
    (h : decode (.ofBytes bytes) = .error (x.error .clean)) (hlen : 16 ≤ bytes.length) :
    ∃ offset field, decode (.ofBytes bytes) = .error (.unexpectedEnd offset field)
      ∧ bytes.length < offset + 8 ∧ offset ≤ bytes.length := by
  cases x with
  | inTypeTag => exact absurd hx (Nat.not_lt.mpr hlen)
  | inField offset field => exact ⟨offset, field, h, hx.2, hx.1⟩

end Plot

/-- **The verdict on bytes rests on those consumed, and no cut goes unnoticed.**  Fewer than 16
bytes are never verified.  Of all others, those that do not run out may be followed or replaced,
behind the offset reached, by anything; and those that decode run out at every earlier offset,
where the error leads back by less than the width of a name. -/
theorem decode_eq_of_take_eq (bytes : List UInt8) :
    (Plot.decode (.ofBytes bytes) = .error (.malformed .unverified) ↔ bytes.length < 16)
    ∧ (16 ≤ bytes.length →
      (∀ offset field, Plot.decode (.ofBytes bytes) ≠ .error (.unexpectedEnd offset field)) →
      Plot.consumed bytes ≤ bytes.length ∧ ∀ others : List UInt8,
        others.take (Plot.consumed bytes) = bytes.take (Plot.consumed bytes) →
        Plot.decode (.ofBytes others) = Plot.decode (.ofBytes bytes)
          ∧ Plot.consumed others = Plot.consumed bytes)
    ∧ ∀ p, Plot.decode (.ofBytes bytes) = .ok p →
      Plot.consumed bytes ≤ bytes.length ∧ ∀ j < Plot.consumed bytes,
        (j < 16 → Plot.decode (.ofBytes (bytes.take j)) = .error (.malformed .unverified))
        ∧ (16 ≤ j → ∃ offset field,
          Plot.decode (.ofBytes (bytes.take j)) = .error (.unexpectedEnd offset field)
            ∧ j < offset + 8 ∧ offset ≤ j) := by
  refine ⟨Plot.decode_eq_unverified_iff bytes, ?_, ?_⟩
  · intro hlen hends
    rcases Plot.decode_cases bytes with ⟨front, v, hfront, hneeds⟩ | ⟨x, hx, herror⟩
    · obtain ⟨hv, hconsumed⟩ := Plot.decode_of_needs hneeds hfront
      rw [hv, hconsumed]
      refine ⟨hfront.length_le, ?_⟩
      intro others htake
      rw [← List.prefix_iff_eq_take.mp hfront] at htake
      exact Plot.decode_of_needs hneeds (htake ▸ List.take_prefix _ others)
    · obtain ⟨offset, field, hend, -⟩ := Plot.exists_unexpectedEnd hx herror hlen
      exact absurd hend (hends offset field)
  · intro p hp
    rcases Plot.decode_cases bytes with ⟨front, v, hfront, hneeds⟩ | ⟨x, -, herror⟩
    · rw [(Plot.decode_of_needs hneeds hfront).2]
      refine ⟨hfront.length_le, ?_⟩
      intro j hj
      have hlen : (bytes.take j).length = j :=
        List.length_take_of_le (Nat.le_of_lt (Nat.lt_of_lt_of_le hj hfront.length_le))
      have hpart : bytes.take j <+: front :=
        List.prefix_of_prefix_length_le (List.take_prefix j bytes) hfront
          (Nat.le_trans (Nat.le_of_eq hlen) (Nat.le_of_lt hj))
      have hne : bytes.take j ≠ front := by
        intro h
        rw [h] at hlen
        exact Nat.ne_of_gt hj hlen
      constructor
      · intro h
        exact (Plot.decode_eq_unverified_iff _).mpr (hlen.symm ▸ h)
      · intro h
        obtain ⟨x, hx, herror⟩ := Plot.decode_of_needs_of_ne hneeds hpart hne
        have hend := Plot.exists_unexpectedEnd hx herror (hlen.symm ▸ h)
        rwa [hlen] at hend
    · rw [hp] at herror
      cases herror

/-- A cut in the values of the only item of a file, and another end behind its stop tag. -/
theorem decode_cut_ratesFile :
    16 ≤ (ratesFile.bytes ++ [1]).length
      ∧ Plot.decode (.ofBytes (ratesFile.bytes ++ [1])) = .ok ratesFile.plot
      ∧ Plot.consumed (ratesFile.bytes ++ [1]) = 1068
      ∧ Plot.decode (.ofBytes (ratesFile.bytes ++ [2, 3])) = .ok ratesFile.plot
      ∧ ∃ offset field,
        Plot.decode (.ofBytes ((ratesFile.bytes ++ [1]).take 1050))
          = .error (.unexpectedEnd offset field) ∧ 1050 < offset + 8 ∧ offset ≤ 1050 := by
  have hlength : ratesFile.bytes.length = 1068 := by decide +kernel
  have hdecode := decode_bytes_file ratesFile [1]
  have hconsumed := Plot.consumed_bytes_file ratesFile [1]
  rw [hlength] at hconsumed
  have h16 : 16 ≤ (ratesFile.bytes ++ [1]).length := by
    rw [List.length_append, hlength]
    decide
  obtain ⟨-, hlocal, hcut⟩ := decode_eq_of_take_eq (ratesFile.bytes ++ [1])
  refine ⟨h16, hdecode, hconsumed, ?_, ?_⟩
  · have htake : ∀ tail : List UInt8,
        (ratesFile.bytes ++ tail).take (Plot.consumed (ratesFile.bytes ++ [1]))
          = ratesFile.bytes := by
      intro tail
      rw [hconsumed, ← hlength, List.take_left]
    rw [← hdecode]
    refine ((hlocal h16 ?_).2 (ratesFile.bytes ++ [2, 3]) ?_).1
    · intro offset field
      rw [hdecode]
      exact nofun
    · rw [htake, htake]
  · exact ((hcut _ hdecode).2 1050 (by rw [hconsumed]; decide)).2 (by decide)

end ReservoirPlot
