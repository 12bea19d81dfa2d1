/-
ReservoirPlot/Proofs/Text/Utf8.lean

Reading undoes writing.  The table of followers says which bytes may stand behind a
lead byte, and it says so exactly: the runs that it admits are the encoded
characters, and the code point that a run makes is that of its character.  The two
directions are

    admits_utf8EncodeChar         the bytes of a character are admitted
    utf8EncodeChar_codePoint      an admitted run is the bytes of a character

each by cases on the number of followers.  From them the pieces of encoded text are
its characters (`pieces_encode`), so the strict reading accepts the encoded texts
and nothing else (`decode?_eq_some_iff`), and the lossy reading gives them back
(`decodeLossy_encode`).
-/
import Mathlib.Data.List.Forall2
import ReservoirPlot.Text.Utf8

namespace ReservoirPlot.Utf8

/-! ### Lead bytes and their followers -/

theorem holds_iff {r : Span} {b : UInt8} :
    r.holds b ↔ r.low.toNat ≤ b.toNat ∧ b.toNat ≤ r.high.toNat := by
  rw [Span.holds, Bool.and_eq_true, decide_eq_true_eq, decide_eq_true_eq, UInt8.le_iff_toNat_le,
    UInt8.le_iff_toNat_le]

theorem holds_continuation {b : UInt8} :
    continuation.holds b ↔ 0x80 ≤ b.toNat ∧ b.toNat ≤ 0xBF :=
  holds_iff

/-- What the first of two or three followers must be. -/
def narrowed (lead : UInt8) : Span :=
  ⟨if lead = 0xE0 then 0xA0 else if lead = 0xF0 then 0x90 else 0x80,
    if lead = 0xED then 0x9F else if lead = 0xF4 then 0x8F else 0xBF⟩

theorem holds_narrowed {lead b : UInt8} : (narrowed lead).holds b ↔
    (0x80 ≤ b.toNat ∧ b.toNat ≤ 0xBF)
      ∧ (lead.toNat = 0xE0 → 0xA0 ≤ b.toNat) ∧ (lead.toNat = 0xED → b.toNat ≤ 0x9F)
      ∧ (lead.toNat = 0xF0 → 0x90 ≤ b.toNat) ∧ (lead.toNat = 0xF4 → b.toNat ≤ 0x8F) := by
  simp only [narrowed, holds_iff, ← UInt8.toNat_inj, apply_ite UInt8.toNat, UInt8.reduceToNat]
  grind

/-- The table of followers, by the number of a lead byte. -/
theorem followers_eq (lead : UInt8) : followers lead =
    if lead.toNat < 0x80 then some []
    else if lead.toNat < 0xC2 then none
    else if lead.toNat < 0xE0 then some [continuation]
    else if lead.toNat < 0xF0 then some [narrowed lead, continuation]
    else if lead.toNat < 0xF5 then some [narrowed lead, continuation, continuation]
    else none := by
  simp only [followers, UInt8.lt_iff_toNat_lt, ← UInt8.toNat_inj, UInt8.reduceToNat, narrowed,
    continuation]
  grind

/-- The runs of bytes that a lead byte admits, by how many there are. -/
inductive Admits (lead : UInt8) : List UInt8 → Prop
  | one (h : lead.toNat < 0x80) : Admits lead []
  | two {b : UInt8} (low : 0xC2 ≤ lead.toNat) (high : lead.toNat < 0xE0)
      (hb : continuation.holds b) : Admits lead [b]
  | three {b c : UInt8} (low : 0xE0 ≤ lead.toNat) (high : lead.toNat < 0xF0)
      (hb : (narrowed lead).holds b) (hc : continuation.holds c) : Admits lead [b, c]
  | four {b c d : UInt8} (low : 0xF0 ≤ lead.toNat) (high : lead.toNat < 0xF5)
      (hb : (narrowed lead).holds b) (hc : continuation.holds c) (hd : continuation.holds d) :
      Admits lead [b, c, d]

theorem admits_iff {lead : UInt8} {run : List UInt8} : Admits lead run ↔
    ∃ spans, followers lead = some spans ∧ List.Forall₂ (fun r b => Span.holds r b) spans run := by
  rw [followers_eq]
  constructor
  · intro h
    cases h with
    | one h => exact ⟨[], if_pos h, .nil⟩
    | two low high hb =>
      refine ⟨[continuation], ?_, .cons hb .nil⟩
      rw [if_neg (by omega), if_neg (by omega), if_pos high]
    | three low high hb hc =>
      refine ⟨[narrowed lead, continuation], ?_, .cons hb (.cons hc .nil)⟩
      rw [if_neg (by omega), if_neg (by omega), if_neg (by omega), if_pos high]
    | four low high hb hc hd =>
      refine ⟨[narrowed lead, continuation, continuation], ?_, .cons hb (.cons hc (.cons hd .nil))⟩
      rw [if_neg (by omega), if_neg (by omega), if_neg (by omega), if_neg (by omega), if_pos high]
  · rintro ⟨spans, h, hrun⟩
    split at h
    · next hlead =>
      cases h
      cases hrun
      exact .one hlead
    split at h
    · cases h
    split at h
    · next low high =>
      cases h
      rcases hrun with - | ⟨hb, - | -⟩
      exact .two (by omega) high hb
    split at h
    · next low high =>
      cases h
      rcases hrun with - | ⟨hb, - | ⟨hc, - | -⟩⟩
      exact .three (by omega) high hb hc
    split at h
    · next low high =>
      cases h
      rcases hrun with - | ⟨hb, - | ⟨hc, - | ⟨hd, - | -⟩⟩⟩
      exact .four (by omega) high hb hc hd
    · cases h

/-! ### The front of a byte string -/

/-- Bytes that fit all the spans are taken, whatever stands behind them. -/
theorem fitting_append {spans : List Span} {run : List UInt8}
    (h : List.Forall₂ (fun r b => Span.holds r b) spans run) (rest : List UInt8) :
    fitting spans (run ++ rest) = run := by
  induction h with
  | nil => cases rest <;> rfl
  | cons hb _ ih => rw [List.cons_append, fitting, if_pos hb, ih]

/-- What is taken fits the spans if it is as long as these. -/
theorem forall₂_fitting {spans : List Span} {bytes : List UInt8}
    (h : (fitting spans bytes).length = spans.length) :
    List.Forall₂ (fun r b => Span.holds r b) spans (fitting spans bytes)
      ∧ ∃ rest, bytes = fitting spans bytes ++ rest := by
  induction spans generalizing bytes with
  | nil => exact ⟨by rw [List.length_eq_zero_iff.mp h]; exact .nil, bytes, by
      rw [List.length_eq_zero_iff.mp h, List.nil_append]⟩
  | cons r rs ih =>
    rcases bytes with - | ⟨b, bs⟩
    · cases h
    · rw [fitting] at h ⊢
      split at h
      · next hb =>
        obtain ⟨hrest, rest, hbytes⟩ := ih (Nat.succ.inj h)
        rw [if_pos hb]
        exact ⟨.cons hb hrest, rest, congrArg (b :: ·) hbytes⟩
      · cases h

/-- The front is a character exactly if the lead byte admits the bytes behind it. -/
theorem front_eq_some_iff {lead : UInt8} {bytes : List UInt8} {c : Char} {n : Nat} :
    front lead bytes = (some c, n) ↔ ∃ run rest, bytes = run ++ rest ∧ run.length = n
      ∧ Admits lead run ∧ c = Char.ofNat (codePoint lead run) := by
  constructor
  · intro h
    rw [front] at h
    rcases hspans : followers lead with - | spans
    · rw [hspans] at h
      cases h
    · rw [hspans] at h
      dsimp only at h
      split at h
      · next hlength =>
        obtain ⟨hrun, rest, hbytes⟩ := forall₂_fitting hlength
        cases h
        exact ⟨_, rest, hbytes, rfl, admits_iff.mpr ⟨spans, hspans, hrun⟩, rfl⟩
      · cases h
  · rintro ⟨run, rest, rfl, rfl, hadmits, rfl⟩
    obtain ⟨spans, hspans, hrun⟩ := admits_iff.mp hadmits
    rw [front, hspans]
    dsimp only
    rw [fitting_append hrun, if_pos hrun.length_eq.symm]

/-! ### Characters and their bytes -/

section

variable {c : Char}

theorem utf8EncodeChar_one (h : c.toNat ≤ 0x7F) :
    String.utf8EncodeChar c = [UInt8.ofNat c.toNat] :=
  if_pos h

theorem utf8EncodeChar_two (low : 0x7F < c.toNat) (high : c.toNat ≤ 0x7FF) :
    String.utf8EncodeChar c
      = [UInt8.ofNat (c.toNat / 64 % 32 + 192), UInt8.ofNat (c.toNat % 64 + 128)] :=
  (if_neg (Nat.not_le.mpr low)).trans (if_pos high)

theorem utf8EncodeChar_three (low : 0x7FF < c.toNat) (high : c.toNat ≤ 0xFFFF) :
    String.utf8EncodeChar c
      = [UInt8.ofNat (c.toNat / 4096 % 16 + 224), UInt8.ofNat (c.toNat / 64 % 64 + 128),
        UInt8.ofNat (c.toNat % 64 + 128)] := by
  have hone : ¬ c.toNat ≤ 0x7F := by omega
  exact (if_neg hone).trans ((if_neg (Nat.not_le.mpr low)).trans (if_pos high))

theorem utf8EncodeChar_four (low : 0xFFFF < c.toNat) :
    String.utf8EncodeChar c
      = [UInt8.ofNat (c.toNat / 262144 % 8 + 240), UInt8.ofNat (c.toNat / 4096 % 64 + 128),
        UInt8.ofNat (c.toNat / 64 % 64 + 128), UInt8.ofNat (c.toNat % 64 + 128)] := by
  have hone : ¬ c.toNat ≤ 0x7F := by omega
  have htwo : ¬ c.toNat ≤ 0x7FF := by omega
  exact (if_neg hone).trans ((if_neg htwo).trans (if_neg (Nat.not_le.mpr low)))

end

theorem toNat_ofNat_of_valid {n : Nat} (h : n < 0xD800 ∨ 0xDFFF < n ∧ n < 0x110000) :
    (Char.ofNat n).toNat = n := by
  have hvalid : n.isValidChar := h
  rw [Char.ofNat, dif_pos hvalid]
  rfl

theorem codePoint_one (a : UInt8) : codePoint a [] = a.toNat := rfl

theorem codePoint_two (a b : UInt8) :
    codePoint a [b] = a.toNat % 32 * 64 + b.toNat % 64 := rfl

theorem codePoint_three (a b c : UInt8) :
    codePoint a [b, c] = (a.toNat % 16 * 64 + b.toNat % 64) * 64 + c.toNat % 64 := rfl

theorem codePoint_four (a b c d : UInt8) : codePoint a [b, c, d]
    = ((a.toNat % 8 * 64 + b.toNat % 64) * 64 + c.toNat % 64) * 64 + d.toNat % 64 := rfl

/-- Two bytes make the numbers that need two. -/
theorem codePoint_two_bounds {lead : UInt8} (b : UInt8) (low : 0xC2 ≤ lead.toNat)
    (high : lead.toNat < 0xE0) : 0x7F < codePoint lead [b] ∧ codePoint lead [b] ≤ 0x7FF := by
  rw [codePoint_two]
  omega

/-- Three bytes make the numbers that need three, but for the surrogates. -/
theorem codePoint_three_bounds {lead b : UInt8} (c : UInt8) (low : 0xE0 ≤ lead.toNat)
    (high : lead.toNat < 0xF0) (hb : (narrowed lead).holds b) :
    0x7FF < codePoint lead [b, c] ∧ codePoint lead [b, c] ≤ 0xFFFF
      ∧ (codePoint lead [b, c] < 0xD800 ∨ 0xDFFF < codePoint lead [b, c]) := by
  obtain ⟨hfollows, hE0, hED, -, -⟩ := holds_narrowed.mp hb
  rw [codePoint_three]
  -- `0xE0` needs a higher second byte for the lower bound, `0xED` a lower one for the surrogates.
  refine ⟨?_, ?_, ?_⟩
  · clear hED
    omega
  · omega
  · clear hE0
    omega

/-- Four bytes make the numbers that need four. -/
theorem codePoint_four_bounds {lead b : UInt8} (c d : UInt8) (low : 0xF0 ≤ lead.toNat)
    (high : lead.toNat < 0xF5) (hb : (narrowed lead).holds b) :
    0xFFFF < codePoint lead [b, c, d] ∧ codePoint lead [b, c, d] < 0x110000 := by
  obtain ⟨hfollows, -, -, hF0, hF4⟩ := holds_narrowed.mp hb
  rw [codePoint_four]
  constructor
  · clear hF4
    omega
  · clear hF0
    omega

/-- Six bits make the follower that has them. -/
theorem ofNat_follower {b : UInt8} {n : Nat} (hb : 0x80 ≤ b.toNat ∧ b.toNat ≤ 0xBF)
    (h : n % 64 = b.toNat % 64) : UInt8.ofNat (n % 64 + 128) = b := by
  rw [← UInt8.toNat_inj, UInt8.toNat_ofNat']
  omega

theorem ofNat_eq_of_toNat_eq {b : UInt8} {n : Nat} (h : n = b.toNat) : UInt8.ofNat n = b :=
  h ▸ UInt8.ofNat_toNat

/-- A run that is admitted is the bytes of the character that it makes. -/
theorem Admits.utf8EncodeChar_codePoint {lead : UInt8} {run : List UInt8} (h : Admits lead run) :
    String.utf8EncodeChar (Char.ofNat (codePoint lead run)) = lead :: run := by
  cases h with
  | one h =>
    have hchar : (Char.ofNat lead.toNat).toNat = lead.toNat := toNat_ofNat_of_valid (by omega)
    rw [codePoint_one, utf8EncodeChar_one (by omega), hchar, UInt8.ofNat_toNat]
  | @two b low high hb =>
    obtain ⟨hlow, hhigh⟩ := codePoint_two_bounds b low high
    have hchar := toNat_ofNat_of_valid (.inl (Nat.lt_of_le_of_lt hhigh (by decide)))
    rw [utf8EncodeChar_two (by omega) (by omega), hchar, codePoint_two]
    simp only [List.cons.injEq, and_true]
    exact ⟨ofNat_eq_of_toNat_eq (by omega), ofNat_follower (holds_continuation.mp hb) (by omega)⟩
  | @three b c low high hb hc =>
    obtain ⟨hlow, hhigh, hvalid⟩ := codePoint_three_bounds c low high hb
    have hchar := toNat_ofNat_of_valid
      (hvalid.imp_right fun h => ⟨h, Nat.lt_of_le_of_lt hhigh (by decide)⟩)
    rw [utf8EncodeChar_three (by omega) (by omega), hchar, codePoint_three]
    simp only [List.cons.injEq, and_true]
    exact ⟨ofNat_eq_of_toNat_eq (by omega), ofNat_follower (holds_narrowed.mp hb).1 (by omega),
      ofNat_follower (holds_continuation.mp hc) (by omega)⟩
  | @four b c d low high hb hc hd =>
    obtain ⟨hlow, hhigh⟩ := codePoint_four_bounds c d low high hb
    have hchar := toNat_ofNat_of_valid (.inr ⟨Nat.lt_trans (by decide) hlow, hhigh⟩)
    rw [utf8EncodeChar_four (by omega), hchar, codePoint_four]
    simp only [List.cons.injEq, and_true]
    exact ⟨ofNat_eq_of_toNat_eq (by omega), ofNat_follower (holds_narrowed.mp hb).1 (by omega),
      ofNat_follower (holds_continuation.mp hc) (by omega),
      ofNat_follower (holds_continuation.mp hd) (by omega)⟩

/-- Six bits are read back from the follower that has them. -/
theorem toNat_follower (n : Nat) : (UInt8.ofNat (n % 64 + 128)).toNat = n % 64 + 128 := by
  rw [UInt8.toNat_ofNat']
  omega

theorem toNat_follower_mod (n : Nat) : (UInt8.ofNat (n % 64 + 128)).toNat % 64 = n % 64 := by
  rw [toNat_follower]
  omega

theorem holds_follower (n : Nat) : continuation.holds (UInt8.ofNat (n % 64 + 128)) := by
  rw [holds_continuation, toNat_follower]
  omega

/-- The bytes of a character are a lead byte and a run that it admits, and make the character. -/
theorem admits_utf8EncodeChar (c : Char) : ∃ lead run, String.utf8EncodeChar c = lead :: run
    ∧ Admits lead run ∧ Char.ofNat (codePoint lead run) = c := by
  have hvalid : c.toNat < 0xD800 ∨ 0xDFFF < c.toNat ∧ c.toNat < 0x110000 := c.valid
  have hof : ∀ n, n = c.toNat → Char.ofNat n = c := fun n hn => hn ▸ Char.ofNat_toNat c
  rcases Nat.lt_or_ge c.toNat 0x80 with hone | hone
  · have hlead : (UInt8.ofNat c.toNat).toNat = c.toNat := by rw [UInt8.toNat_ofNat']; omega
    exact ⟨_, _, utf8EncodeChar_one (by omega), .one (by omega), hof _ hlead⟩
  rcases Nat.lt_or_ge c.toNat 0x800 with htwo | htwo
  · have hlead : (UInt8.ofNat (c.toNat / 64 % 32 + 192)).toNat = c.toNat / 64 % 32 + 192 := by
      rw [UInt8.toNat_ofNat']; omega
    refine ⟨_, _, utf8EncodeChar_two (by omega) (by omega),
      .two (by omega) (by omega) (holds_follower _), hof _ ?_⟩
    rw [codePoint_two, toNat_follower_mod, hlead]
    omega
  rcases Nat.lt_or_ge c.toNat 0x10000 with hthree | hthree
  · have hlead : (UInt8.ofNat (c.toNat / 4096 % 16 + 224)).toNat = c.toNat / 4096 % 16 + 224 := by
      rw [UInt8.toNat_ofNat']; omega
    refine ⟨_, _, utf8EncodeChar_three (by omega) (by omega),
      .three (by omega) (by omega) ?_ (holds_follower _), hof _ ?_⟩
    · rw [holds_narrowed, toNat_follower, hlead]
      refine ⟨by omega, ?_, ?_, ?_, ?_⟩ <;> omega
    · rw [codePoint_three, toNat_follower_mod, toNat_follower_mod, hlead]
      omega
  · have hlead : (UInt8.ofNat (c.toNat / 262144 % 8 + 240)).toNat
        = c.toNat / 262144 % 8 + 240 := by
      rw [UInt8.toNat_ofNat']; omega
    refine ⟨_, _, utf8EncodeChar_four (by omega),
      .four (by omega) (by omega) ?_ (holds_follower _) (holds_follower _), hof _ ?_⟩
    · rw [holds_narrowed, toNat_follower, hlead]
      refine ⟨by omega, ?_, ?_, ?_, ?_⟩ <;> omega
    · rw [codePoint_four, toNat_follower_mod, toNat_follower_mod, toNat_follower_mod, hlead]
      omega

/-! ### Texts and their bytes -/

/-- The first piece of bytes that begin with those of a character is the character. -/
theorem pieces_utf8EncodeChar (c : Char) (rest : List UInt8) :
    pieces (String.utf8EncodeChar c ++ rest) = some c :: pieces rest := by
  obtain ⟨lead, run, hbytes, hadmits, hc⟩ := admits_utf8EncodeChar c
  have hfront : front lead (run ++ rest) = (some c, run.length) :=
    front_eq_some_iff.mpr ⟨run, rest, rfl, rfl, hadmits, hc.symm⟩
  rw [hbytes, List.cons_append, pieces_cons, hfront, List.drop_left]

/-- Of the bytes of a text, each piece is a character. -/
theorem pieces_encode (s : String) : pieces (encode s) = s.toList.map some := by
  rw [encode]
  induction s.toList with
  | nil => exact pieces_nil
  | cons c cs ih => rw [List.flatMap_cons, pieces_utf8EncodeChar, ih, List.map_cons]

theorem characters?_map_some (cs : List Char) : characters? (cs.map some) = some cs := by
  induction cs with
  | nil => rfl
  | cons c cs ih => rw [List.map_cons, characters?, ih]; rfl

/-- Bytes of which each piece is a character are those of the characters. -/
theorem eq_flatMap_of_characters? {bytes : List UInt8} {cs : List Char}
    (h : characters? (pieces bytes) = some cs) : bytes = cs.flatMap String.utf8EncodeChar := by
  -- By the number of bytes: how many of them a piece takes depends on what they are.
  induction hlength : bytes.length using Nat.strongRecOn generalizing bytes cs with
  | _ length ih =>
    rcases bytes with - | ⟨lead, bytes⟩
    · rw [pieces_nil] at h
      cases h
      rfl
    · rw [pieces_cons] at h
      rcases hfront : front lead bytes with ⟨- | c, n⟩
      · rw [hfront] at h
        cases h
      · rw [hfront] at h
        obtain ⟨run, rest, rfl, rfl, hadmits, rfl⟩ := front_eq_some_iff.mp hfront
        obtain ⟨later, hlater, rfl⟩ := Option.map_eq_some_iff.mp h
        rw [List.drop_left] at hlater
        have hless : rest.length < length := by
          rw [← hlength, List.length_cons, List.length_append]
          omega
        have hrest := ih rest.length hless hlater rfl
        rw [List.flatMap_cons, hadmits.utf8EncodeChar_codePoint, ← hrest, List.cons_append]

/-- The strict reading accepts the bytes of texts and nothing else. -/
theorem decode?_eq_some_iff {bytes : List UInt8} {s : String} :
    decode? bytes = some s ↔ bytes = encode s := by
  rw [decode?, Option.map_eq_some_iff]
  constructor
  · rintro ⟨cs, hcs, rfl⟩
    rw [encode, String.toList_ofList]
    exact eq_flatMap_of_characters? hcs
  · rintro rfl
    exact ⟨s.toList, by rw [pieces_encode, characters?_map_some], String.ofList_toList⟩

/-- The lossy reading gives a text back from its bytes. -/
@[simp] theorem decodeLossy_encode (s : String) : decodeLossy (encode s) = s :=
  decodeLossy_of_decode? (decode?_eq_some_iff.mpr rfl)

theorem characters?_eq_none_iff {ps : List (Option Char)} : characters? ps = none ↔ none ∈ ps := by
  induction ps with
  | nil => exact iff_of_false (Option.some_ne_none []) List.not_mem_nil
  | cons piece rest ih =>
    rcases piece with - | c
    · exact iff_of_true rfl List.mem_cons_self
    · rw [characters?, Option.map_eq_none_iff, ih, List.mem_cons]
      exact (or_iff_right (Option.some_ne_none c).symm).symm

/-- Bytes have an ill-formed piece exactly if they are those of no text. -/
theorem none_mem_pieces_iff {bytes : List UInt8} :
    none ∈ pieces bytes ↔ ¬ ∃ s, bytes = encode s := by
  rw [← characters?_eq_none_iff, ← Option.map_eq_none_iff (f := String.ofList)]
  show decode? bytes = none ↔ _
  simp only [← decode?_eq_some_iff, Option.eq_none_iff_forall_ne_some, not_exists, ne_eq]

end ReservoirPlot.Utf8
