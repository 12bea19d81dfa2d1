/-
ReservoirPlot/Proofs/Plot/Recognition.lean

Which bytes a read accepts.  A grammar says which bytes stand for which values,
without saying how they are read.  A read recognises a grammar when both
directions hold on every stream that has all its bytes at hand:

* sound: if the read succeeds, it has taken bytes of the grammar from the front
  of the stream, and its value is one that they stand for;
* complete: if the stream begins with bytes of the grammar, the read succeeds,
  takes just these bytes and gives the value.

Recognition is closed under sequencing (`Recognizes.bind`), so the grammar of a
read is assembled from the grammars of its steps, and one list of steps gives
both directions.  How the stream ends never matters for a read that succeeds.
-/
import Mathlib.Algebra.Group.Int.Defs
import Mathlib.Algebra.Group.Nat.Defs
import ReservoirPlot.Plot.Stream

namespace ReservoirPlot

/-- Which bytes stand for which values. -/
abbrev Grammar (α : Type) := List UInt8 → α → Prop

namespace Grammar

variable {α β : Type}

/-- No bytes at all, for one value. -/
def nothing (a : α) : Grammar α := fun bytes b => bytes = [] ∧ b = a

/-- Bytes of one grammar and then bytes of another, which may depend on the value
of the first. -/
def andThen (F : Grammar α) (G : α → Grammar β) : Grammar β := fun bytes b =>
  ∃ front back a, bytes = front ++ back ∧ F front a ∧ G a back b

/-- The bytes of some things, for the values of these. -/
def ofParts {σ : Type} (bytesOf : σ → List UInt8) (valueOf : σ → α) : Grammar α :=
  fun bytes a => ∃ x, bytes = bytesOf x ∧ a = valueOf x

end Grammar

/-! ### Taking bytes from a stream -/

namespace Stream

/-- A stream that has all its bytes at hand. -/
def AtHand (s : Stream) : Prop := ∃ e, s.supply = .ended e

theorem atHand_of (source : Source) : (Stream.of source).AtHand := ⟨_, rfl⟩

/-- `s.Takes bytes t`: from `s` the bytes have been taken, and `t` is left. -/
structure Takes (s : Stream) (bytes : List UInt8) (t : Stream) : Prop where
  unread : s.unread = bytes ++ t.unread
  supply : t.supply = s.supply
  offset : t.offset = s.offset + bytes.length

theorem Takes.refl (s : Stream) : s.Takes [] s := ⟨rfl, rfl, rfl⟩

theorem Takes.trans {s t u : Stream} {front back : List UInt8} (hst : s.Takes front t)
    (htu : t.Takes back u) : s.Takes (front ++ back) u where
  unread := by rw [hst.unread, htu.unread, List.append_assoc]
  supply := htu.supply.trans hst.supply
  offset := by rw [htu.offset, hst.offset, List.length_append, Nat.add_assoc]

theorem Takes.atHand {s t : Stream} {bytes : List UInt8} (h : s.Takes bytes t)
    (hs : s.AtHand) : t.AtHand := by
  obtain ⟨e, he⟩ := hs
  exact ⟨e, h.supply.trans he⟩

/-- What is left is what followed the bytes. -/
theorem Takes.unread_eq {s t : Stream} {bytes rest : List UInt8} (h : s.Takes bytes t)
    (hs : s.unread = bytes ++ rest) : t.unread = rest :=
  List.append_cancel_left (h.unread.symm.trans hs)

theorem fill_of_atHand {s : Stream} (hs : s.AtHand) (pace : Pace) (n : Nat) :
    s.fill pace n = s := by
  obtain ⟨e, he⟩ := hs
  exact fill_of_supply_eq pace n he

end Stream

/-! ### Words and their bytes -/

theorem length_flatMap_wordBytes (words : List UInt32) :
    (words.flatMap wordBytes).length = 4 * words.length := by
  induction words with
  | nil => rfl
  | cons w rest ih =>
    rw [List.flatMap_cons, List.length_append, ih, length_wordBytes, List.length_cons]
    omega

/-- Words are read back from their bytes. -/
theorem wordsOfBytes_flatMap (words : List UInt32) :
    wordsOfBytes (words.flatMap wordBytes) = words := by
  induction words with
  | nil => rfl
  | cons w rest ih => rw [List.flatMap_cons, wordsOfBytes_wordBytes, ih]

/-- Bytes in groups of four are those of the words that they make. -/
theorem flatMap_wordsOfBytes {bytes : List UInt8} (h : 4 ∣ bytes.length) :
    (wordsOfBytes bytes).flatMap wordBytes = bytes := by
  fun_induction wordsOfBytes bytes with
  | case1 a b c d rest ih =>
    have hrest : 4 ∣ rest.length := by
      simp only [List.length_cons] at h; omega
    rw [List.flatMap_cons, wordBytes_wordOfBytes, ih hrest]
    rfl
  | case2 bytes hshort =>
    rcases bytes with - | ⟨a, - | ⟨b, - | ⟨c, - | ⟨d, rest⟩⟩⟩⟩
    · rfl
    · simp at h
    · simp at h
    · simp at h
    · exact absurd rfl (hshort a b c d rest)

/-- A word as a signed integer: the upper half of the words is negative. -/
theorem toInt_ofUInt32 (w : UInt32) :
    (Int32.ofUInt32 w).toInt
      = if w.toNat < 2 ^ 31 then (w.toNat : Int) else w.toNat - 2 ^ 32 := by
  have hw := w.toNat_lt
  show w.toBitVec.toInt = _
  rw [BitVec.toInt_eq_toNat_cond, UInt32.toNat_toBitVec]
  split <;> split <;> omega

theorem ofUInt32_neg_iff (w : UInt32) : Int32.ofUInt32 w < 0 ↔ 2 ^ 31 ≤ w.toNat := by
  have hw := w.toNat_lt
  rw [Int32.lt_iff_toInt_lt, toInt_ofUInt32, Int32.toInt_zero]
  split <;> omega

theorem toNatClampNeg_ofUInt32 {w : UInt32} (h : w.toNat < 2 ^ 31) :
    (Int32.ofUInt32 w).toNatClampNeg = w.toNat := by
  rw [Int32.toNatClampNeg, toInt_ofUInt32, if_pos h, Int.toNat_natCast]

namespace Reading

variable {α β : Type}

/-- A read succeeds exactly on the streams that begin with bytes of the grammar, takes these
and gives the value that they stand for. -/
structure Recognizes (r : Reading α) (G : Grammar α) : Prop where
  sound : ∀ {s t : Stream} {a : α}, s.AtHand → r s = .ok a t →
    ∃ bytes, G bytes a ∧ s.Takes bytes t
  complete : ∀ {s : Stream} {bytes rest : List UInt8} {a : α}, s.AtHand → G bytes a →
    s.unread = bytes ++ rest → ∃ t, r s = .ok a t ∧ s.Takes bytes t

/-! ### Assembling grammars -/

/-- A sequence of reads succeeds exactly when each of them does. -/
theorem bind_eq_ok {r : Reading α} {f : α → Reading β} {s t : Stream} {b : β} :
    (r >>= f) s = .ok b t ↔ ∃ a u, r s = .ok a u ∧ f a u = .ok b t := by
  constructor
  · intro h
    simp only [bind, EStateM.bind] at h
    split at h
    · next a u hr => exact ⟨a, u, hr, h⟩
    · cases h
  · rintro ⟨a, u, hr, hf⟩
    simp only [bind, EStateM.bind, hr, hf]

/-- A grammar may be replaced by one with the same bytes for the same values. -/
theorem Recognizes.congr {r : Reading α} {F G : Grammar α} (h : Recognizes r F)
    (hFG : ∀ bytes a, F bytes a ↔ G bytes a) : Recognizes r G := by
  have e : F = G := by
    funext bytes a
    exact propext (hFG bytes a)
  rwa [← e]

theorem recognizes_pure (a : α) : Recognizes (pure a) (.nothing a) where
  sound := by
    intro s t b _ h
    cases h
    exact ⟨[], ⟨rfl, rfl⟩, Stream.Takes.refl s⟩
  complete := by
    rintro s _ rest _ _ ⟨rfl, rfl⟩ _
    exact ⟨s, rfl, Stream.Takes.refl s⟩

/-- A read that always fails accepts nothing. -/
theorem recognizes_of_fails {r : Reading α} (h : ∀ s a t, r s ≠ .ok a t) :
    Recognizes r fun _ _ => False where
  sound := fun _ hr => absurd hr (h _ _ _)
  complete := fun _ hG _ => hG.elim

theorem recognizes_throw (e : DecodeError) :
    Recognizes (throw e : Reading α) fun _ _ => False :=
  recognizes_of_fails fun _ _ _ h => by cases h

theorem recognizes_malformed (cause : Malformation) :
    Recognizes (malformed cause : Reading α) fun _ _ => False :=
  recognizes_throw _

/-- What would come after a fault does not matter. -/
theorem recognizes_malformed_bind (cause : Malformation) (f : β → Reading α) :
    Recognizes (malformed cause >>= f) fun _ _ => False :=
  recognizes_of_fails fun _ _ _ h => by
    obtain ⟨_, _, hfail, _⟩ := bind_eq_ok.mp h
    cases hfail

/-- What has been recognised does not touch the bytes. -/
theorem recognizes_report (p : Progress) : Recognizes (report p) (.nothing ()) where
  sound := by
    intro s t a _ h
    cases h
    exact ⟨[], ⟨rfl, rfl⟩, rfl, rfl, rfl⟩
  complete := by
    rintro s _ rest _ _ ⟨rfl, rfl⟩ _
    exact ⟨_, rfl, rfl, rfl, rfl⟩

/-- One read after another accepts bytes of the one grammar and then bytes of the other. -/
theorem Recognizes.bind {r : Reading α} {f : α → Reading β} {F : Grammar α}
    {G : α → Grammar β} (hr : Recognizes r F) (hf : ∀ a, Recognizes (f a) (G a)) :
    Recognizes (r >>= f) (F.andThen G) where
  sound := by
    intro s u b hs h
    obtain ⟨a, t, hra, hfb⟩ := bind_eq_ok.mp h
    obtain ⟨front, hF, hst⟩ := hr.sound hs hra
    obtain ⟨back, hG, htu⟩ := (hf a).sound (hst.atHand hs) hfb
    exact ⟨front ++ back, ⟨front, back, a, rfl, hF, hG⟩, hst.trans htu⟩
  complete := by
    rintro s _ rest b hs ⟨front, back, a, rfl, hF, hG⟩ hunread
    rw [List.append_assoc] at hunread
    obtain ⟨t, hra, hst⟩ := hr.complete hs hF hunread
    obtain ⟨u, hfb, htu⟩ := (hf a).complete (hst.atHand hs) hG (hst.unread_eq hunread)
    exact ⟨u, bind_eq_ok.mpr ⟨a, t, hra, hfb⟩, hst.trans htu⟩

/-- A read with its value changed accepts the same bytes. -/
theorem Recognizes.map {r : Reading α} {F : Grammar α} (hr : Recognizes r F) (g : α → β) :
    Recognizes (r >>= fun a => pure (g a)) fun bytes b => ∃ a, F bytes a ∧ b = g a := by
  apply (hr.bind fun a => recognizes_pure (g a)).congr
  intro bytes b
  constructor
  · rintro ⟨front, _, a, rfl, hF, rfl, rfl⟩
    exact ⟨a, by rwa [List.append_nil], rfl⟩
  · rintro ⟨a, hF, rfl⟩
    exact ⟨bytes, [], a, (List.append_nil _).symm, hF, rfl, rfl⟩

/-- A read behind a check accepts its bytes if the check is passed. -/
theorem Recognizes.guarded {r : Reading α} {F : Grammar α} (hr : Recognizes r F) (c : Prop)
    [Decidable c] {failing : Reading α} (hfail : Recognizes failing fun _ _ => False) :
    Recognizes (if c then r else failing) fun bytes a => c ∧ F bytes a := by
  by_cases hc : c
  · simpa only [hc, if_true, true_and] using hr
  · simpa only [hc, if_false, false_and] using hfail

theorem Recognizes.guarded_not {r : Reading α} {F : Grammar α} (hr : Recognizes r F) (c : Prop)
    [Decidable c] {failing : Reading α} (hfail : Recognizes failing fun _ _ => False) :
    Recognizes (if c then failing else r) fun bytes a => ¬ c ∧ F bytes a := by
  rw [← ite_not]
  exact hr.guarded (¬ c) hfail

/-- The error of a read does not matter for what it accepts. -/
theorem Recognizes.failingAs {r : Reading α} {F : Grammar α} (hr : Recognizes r F)
    (e : DecodeError) : Recognizes (Reading.failingAs e r) F where
  sound := by
    intro s t a hs h
    simp only [Reading.failingAs] at h
    split at h
    · next hra => cases h; exact hr.sound hs hra
    · cases h
  complete := by
    intro s bytes rest a hs hF hunread
    obtain ⟨t, hra, hst⟩ := hr.complete hs hF hunread
    exact ⟨t, by simp only [Reading.failingAs, hra], hst⟩

/-! ### The grammars of the reads -/

/-- A bulk read takes any bytes of the right number. -/
theorem recognizes_readAt (pace : Pace) (n : Nat) (field : String) :
    Recognizes (readAt pace n field) fun bytes b => b = bytes ∧ bytes.length = n where
  sound := by
    intro s t b hs h
    have hfill := Stream.fill_of_atHand hs pace n
    simp only [readAt, hfill] at h
    split at h
    · next hlen =>
      cases h
      refine ⟨s.unread.take n, ⟨rfl, hlen⟩, ?_, rfl, by rw [hlen]⟩
      exact (List.take_append_drop n s.unread).symm
    · split at h <;> cases h
  complete := by
    rintro s _ rest taken hs ⟨rfl, rfl⟩ hunread
    have hle : taken.length ≤ s.unread.length := by
      rw [hunread, List.length_append]; exact Nat.le_add_right _ _
    refine ⟨⟨rest, s.supply, s.offset + taken.length, s.progress⟩, ?_, hunread, rfl, rfl⟩
    rw [readAt_of_le (Stream.fill_of_atHand hs pace taken.length) hle, hunread, List.take_left,
      List.drop_left]

theorem recognizes_readBytes (n : Nat) (field : String) :
    Recognizes (readBytes n field) fun bytes b => b = bytes ∧ bytes.length = n :=
  recognizes_readAt _ n field

theorem recognizes_skip (n : Nat) (field : String) :
    Recognizes (skip n field) fun bytes _ => bytes.length = n := by
  apply ((recognizes_readAt .even n field).map fun _ => ()).congr
  intro bytes _
  constructor
  · rintro ⟨_, ⟨_, hlen⟩, _⟩
    exact hlen
  · intro hlen
    exact ⟨bytes, ⟨rfl, hlen⟩, rfl⟩

/-- A token is read from its own bytes. -/
theorem recognizes_readToken (width : Nat) (field : String) :
    Recognizes (readToken width field) fun bytes t => bytes = t.bytes where
  sound := by
    intro s u t hs h
    obtain ⟨hunread, hsupply, hoffset⟩ := unread_of_readToken h
    rw [Stream.fill_of_atHand hs] at hunread hsupply
    exact ⟨t.bytes, rfl, hunread, hsupply, by rw [hoffset, t.length_eq]⟩
  complete := by
    rintro s _ rest t hs rfl hunread
    have htake : s.unread.take width = t.bytes := by
      rw [hunread, List.take_append_of_le_length (Nat.le_of_eq t.length_eq.symm)]
      exact List.take_of_length_le (Nat.le_of_eq t.length_eq)
    refine ⟨⟨s.unread.drop width, s.supply, s.offset + width, s.progress⟩, ?_, ?_, rfl, ?_⟩
    · simp only [readToken, Stream.fill_of_atHand hs, htake, t.length_eq, dite_true]
    · rw [← htake]
      exact (List.take_append_drop width s.unread).symm
    · rw [t.length_eq]

/-- Words are read from their bytes, the highest byte first. -/
theorem recognizes_readWords (n : Nat) (field : String) :
    Recognizes (readWords n field) fun bytes words =>
      bytes = words.flatMap wordBytes ∧ words.length = n := by
  apply ((recognizes_readBytes (4 * n) field).map wordsOfBytes).congr
  intro bytes words
  constructor
  · rintro ⟨_, ⟨rfl, hlen⟩, rfl⟩
    refine ⟨(flatMap_wordsOfBytes ⟨n, hlen⟩).symm, ?_⟩
    rw [length_wordsOfBytes, hlen, Nat.mul_div_cancel_left n (by decide)]
  · rintro ⟨rfl, rfl⟩
    exact ⟨_, ⟨rfl, length_flatMap_wordBytes words⟩, (wordsOfBytes_flatMap words).symm⟩

theorem recognizes_readInts (n : Nat) (field : String) :
    Recognizes (readInts n field) fun bytes xs => ∃ words : List UInt32,
      (bytes = words.flatMap wordBytes ∧ words.length = n) ∧ xs = words.map Int32.ofUInt32 :=
  (recognizes_readWords n field).map _

theorem recognizes_readSingles (n : Nat) (field : String) :
    Recognizes (readSingles n field) fun bytes xs =>
      bytes = xs.flatMap (fun x => wordBytes x.bits) ∧ xs.length = n := by
  apply ((recognizes_readWords n field).map _).congr
  intro bytes xs
  constructor
  · rintro ⟨words, ⟨rfl, rfl⟩, rfl⟩
    exact ⟨by rw [List.flatMap_map], List.length_map ..⟩
  · rintro ⟨rfl, rfl⟩
    refine ⟨xs.map Binary32.bits, ⟨by rw [List.flatMap_map], List.length_map ..⟩, ?_⟩
    rw [List.map_map]
    exact (List.map_id xs).symm

end Reading

end ReservoirPlot
