/-
ReservoirPlot/Proofs/Token.lean

Which names survive in a token.  A token is its content and then its padding, the
run of spaces and NULs at its end.  Only spaces come from writing a name, so a token
fits a name exactly if it is the name and spaces (`fits_iff`); and taking padding
off the bytes of a name takes spaces and NULs off the name (`dropEnd_encode`), since
no other character ends in one of these bytes.  So of a token that fits any name at
all, the content is the bytes of a text.

Main result: `fits_and_trimmed`.
-/
import Mathlib.Data.List.Induction
import Mathlib.Data.List.TakeWhile
import ReservoirPlot.Proofs.Text.Utf8
import ReservoirPlot.Token

namespace ReservoirPlot

namespace Token

variable {width : Nat} {t : Token width} {name : String}

/-! ### Content and padding -/

/-- The longest run of spaces and NULs at the end of a token. -/
def padding (t : Token width) : List UInt8 :=
  (t.bytes.reverse.takeWhile isPadding).reverse

theorem content_append_padding (t : Token width) : t.content ++ t.padding = t.bytes :=
  Text.dropEnd_append isPadding t.bytes

theorem isPadding_space : isPadding space := rfl

theorem content_of_bytes {front : List UInt8} {n : Nat}
    (h : t.bytes = front ++ List.replicate n space) : t.content = Text.dropEnd isPadding front := by
  rw [content, h]
  apply Text.dropEnd_append_of_forall
  intro b hb
  rw [List.eq_of_mem_replicate hb]
  exact isPadding_space

/-! ### Names -/

/-- The characters that are padding in a token. -/
def padsName (c : Char) : Bool :=
  c = ' ' || c = '\x00'

theorem isPadding_iff {b : UInt8} : isPadding b ↔ b.toNat = 0x20 ∨ b.toNat = 0 := by
  simp only [isPadding, space, Bool.or_eq_true, decide_eq_true_eq, ← UInt8.toNat_inj,
    UInt8.toNat_ofNat]

theorem padsName_iff {c : Char} : padsName c ↔ c.toNat = 0x20 ∨ c.toNat = 0 := by
  simp only [padsName, Bool.or_eq_true, decide_eq_true_eq, ← Char.toNat_inj]
  rfl

/-- Only a space and a NUL end in a byte that is padding. -/
theorem utf8EncodeChar_cases (c : Char) :
    (padsName c ∧ ∃ b, String.utf8EncodeChar c = [b] ∧ isPadding b)
      ∨ (¬ padsName c ∧ ∃ front b, String.utf8EncodeChar c = front ++ [b] ∧ ¬ isPadding b) := by
  rw [padsName_iff]
  simp only [isPadding_iff]
  rcases Nat.lt_or_ge c.toNat 0x80 with hone | hone
  · rw [Utf8.utf8EncodeChar_one (by omega)]
    have hbyte : (UInt8.ofNat c.toNat).toNat = c.toNat := by rw [UInt8.toNat_ofNat']; omega
    by_cases hc : c.toNat = 0x20 ∨ c.toNat = 0
    · exact .inl ⟨hc, _, rfl, hbyte.symm ▸ hc⟩
    · exact .inr ⟨hc, [], _, rfl, hbyte.symm ▸ hc⟩
  -- The last of several bytes is a follower, and no follower is a space or a NUL.
  have hlast : ¬ ((UInt8.ofNat (c.toNat % 64 + 128)).toNat = 0x20
      ∨ (UInt8.ofNat (c.toNat % 64 + 128)).toNat = 0) := by
    rw [UInt8.toNat_ofNat']; omega
  refine .inr ⟨by omega, ?_⟩
  rcases Nat.lt_or_ge c.toNat 0x800 with htwo | htwo
  · exact ⟨[_], _, Utf8.utf8EncodeChar_two (by omega) (by omega), hlast⟩
  rcases Nat.lt_or_ge c.toNat 0x10000 with hthree | hthree
  · exact ⟨[_, _], _, Utf8.utf8EncodeChar_three (by omega) (by omega), hlast⟩
  · exact ⟨[_, _, _], _, Utf8.utf8EncodeChar_four (by omega), hlast⟩

/-- Dropping padding from the bytes of a name drops spaces and NULs from the name. -/
theorem dropEnd_encode (s : String) : Text.dropEnd isPadding (Utf8.encode s)
    = Utf8.encode (String.ofList (Text.dropEnd padsName s.toList)) := by
  rw [Utf8.encode, Utf8.encode, String.toList_ofList]
  induction s.toList using List.reverseRecOn with
  | nil => rfl
  | append_singleton cs c ih =>
    rw [List.flatMap_append, List.flatMap_singleton]
    rcases utf8EncodeChar_cases c with ⟨hc, b, hbytes, hb⟩ | ⟨hc, front, b, hbytes, hb⟩
    · rw [hbytes, Text.dropEnd_append_of_forall (by simpa using hb),
        Text.dropEnd_append_of_forall (by simpa using hc), ih]
    · rw [Text.dropEnd_concat_of_not hc, hbytes, ← List.append_assoc,
        Text.dropEnd_concat_of_not hb, List.flatMap_append, List.flatMap_singleton, hbytes,
        List.append_assoc]

theorem dropEnd_eq_self {cs : List Char} (h : ∀ c ∈ cs.getLast?, c ≠ ' ' ∧ c ≠ '\x00') :
    Text.dropEnd padsName cs = cs := by
  rcases List.eq_nil_or_concat' cs with rfl | ⟨front, c, rfl⟩
  · rfl
  · obtain ⟨hspace, hnul⟩ := h c (by rw [List.getLast?_concat]; rfl)
    exact Text.dropEnd_concat_of_not (by simp [padsName, hspace, hnul]) front

/-! ### Which tokens fit which names -/

/-- A name that is short enough stands in its token as it is. -/
theorem bytes_padded (h : (Utf8.encode name).length ≤ width) : (padded width name).bytes
    = Utf8.encode name ++ List.replicate (width - (Utf8.encode name).length) space :=
  congrArg (· ++ _) (List.take_of_length_le h)

/-- Of a name that is long enough, only the beginning stands in its token. -/
theorem bytes_padded_of_le (h : width ≤ (Utf8.encode name).length) :
    (padded width name).bytes = (Utf8.encode name).take width := by
  show _ ++ List.replicate (width - _) space = _
  rw [Nat.sub_eq_zero_of_le h, List.replicate_zero, List.append_nil]

/-- A token fits a name exactly if it is the bytes of the name and then spaces. -/
theorem fits_iff : t.fits name ↔ ∃ n, t.bytes = Utf8.encode name ++ List.replicate n space := by
  rw [fits, Bool.and_eq_true, decide_eq_true_eq, decide_eq_true_eq]
  constructor
  · rintro ⟨rfl, hlength⟩
    exact ⟨_, bytes_padded hlength⟩
  · rintro ⟨n, hbytes⟩
    have hwidth := t.length_eq
    rw [hbytes, List.length_append, List.length_replicate] at hwidth
    have hlength : (Utf8.encode name).length ≤ width := by omega
    refine ⟨ext ?_, hlength⟩
    rw [bytes_padded hlength, hbytes, ← hwidth, Nat.add_sub_cancel_left]

/-- A name that is too long is that of no token. -/
theorem not_fits_of_lt (h : width < (Utf8.encode name).length) : ¬ t.fits name := by
  rw [fits, Bool.and_eq_true, decide_eq_true_eq, decide_eq_true_eq]
  exact fun hfits => absurd hfits.2 (Nat.not_le_of_lt h)

/-- Of a token that fits a name, the content is the bytes of a text. -/
theorem content_of_fits (h : t.fits name) :
    t.content = Utf8.encode (String.ofList (Text.dropEnd padsName name.toList)) := by
  obtain ⟨n, hbytes⟩ := fits_iff.mp h
  rw [content_of_bytes hbytes, dropEnd_encode]

theorem padded_fits (h : (Utf8.encode name).length ≤ width) : (padded width name).fits name := by
  rw [fits, Bool.and_eq_true, decide_eq_true_eq, decide_eq_true_eq]
  exact ⟨rfl, h⟩

/-- A name that does not end in padding is read back from its token. -/
theorem trimmed_padded (h : (Utf8.encode name).length ≤ width)
    (hlast : ∀ c ∈ name.toList.getLast?, c ≠ ' ' ∧ c ≠ '\x00') :
    (padded width name).trimmed = name := by
  rw [trimmed, content_of_fits (padded_fits h), dropEnd_eq_self hlast, String.ofList_toList,
    Utf8.decodeLossy_encode]

/-- A token fits its own trimmed text exactly if it is the bytes of a text and then spaces. -/
theorem fits_trimmed_iff :
    t.fits t.trimmed ↔ 0 ∉ t.padding ∧ ∃ text, t.content = Utf8.encode text := by
  constructor
  · intro h
    -- The content is the bytes of a text, so the lossy reading that trims loses nothing of it.
    have hcontent := content_of_fits h
    have htrimmed : t.content = Utf8.encode t.trimmed := by
      rw [trimmed, hcontent, Utf8.decodeLossy_encode]
    refine ⟨?_, _, htrimmed⟩
    obtain ⟨n, hbytes⟩ := fits_iff.mp h
    have hpadding : t.padding = List.replicate n space := by
      rw [← content_append_padding, ← htrimmed] at hbytes
      exact List.append_cancel_left hbytes
    rw [hpadding]
    exact fun hmem => absurd (List.eq_of_mem_replicate hmem) (by decide)
  · rintro ⟨hnul, text, htext⟩
    have hpadding : t.padding = List.replicate t.padding.length space := by
      refine List.eq_replicate_iff.mpr ⟨rfl, fun b hb => ?_⟩
      have hpads : isPadding b := List.mem_takeWhile_imp (List.mem_reverse.mp hb)
      rcases (Bool.or_eq_true _ _).mp hpads with hspace | hzero
      · exact of_decide_eq_true hspace
      · exact absurd (of_decide_eq_true hzero ▸ hb) hnul
    refine fits_iff.mpr ⟨t.padding.length, ?_⟩
    rw [trimmed, htext, Utf8.decodeLossy_encode, ← htext, ← hpadding, content_append_padding]

end Token

/-- **Which tokens fit which names.** A token fits a name exactly if it is the bytes of the name and
then spaces, so two tokens that fit one name are the same.  A name that is short enough and does not
end in a space or a NUL is read back from its token, which fits it.  A token fits its own trimmed
text exactly if its padding has no NUL and the bytes before the padding are those of a text; so it
does not if one of the characters of its trimmed text stands for an ill-formed piece, whether or not
the trimmed text makes the token again. -/
theorem fits_and_trimmed (width : Nat) :
    (∀ (t : Token width) (name : String),
      t.fits name ↔ ∃ n, t.bytes = Utf8.encode name ++ List.replicate n Token.space)
    ∧ (∀ (a b : Token width) (name : String), a.fits name → b.fits name → a = b)
    ∧ (∀ name : String, (Utf8.encode name).length ≤ width →
      (∀ c ∈ name.toList.getLast?, c ≠ ' ' ∧ c ≠ '\x00') →
        (Token.padded width name).trimmed = name ∧ (Token.padded width name).fits name)
    ∧ (∀ t : Token width,
      t.fits t.trimmed ↔ 0 ∉ t.padding ∧ ∃ text, t.content = Utf8.encode text)
    ∧ ∀ t : Token width, none ∈ Utf8.pieces t.content → ¬ t.fits t.trimmed :=
  ⟨fun _ _ => Token.fits_iff, fun _ _ _ => Token.eq_of_fits,
    fun _ h hlast => ⟨Token.trimmed_padded h hlast, Token.padded_fits h⟩,
    fun _ => Token.fits_trimmed_iff,
    fun _ h hfits => Utf8.none_mem_pieces_iff.mp h (Token.fits_trimmed_iff.mp hfits).2⟩

/-- A name cut inside its last character, U+FFFD: its trimmed text makes the token again. -/
def cutToken : ClassName := ⟨[0x46, 0x49, 0x45, 0x4C, 0x44, 0x53, 0xEF, 0xBF], rfl⟩

theorem fits_and_trimmed_of_cut :
    none ∈ Utf8.pieces cutToken.content ∧ Token.padded 8 cutToken.trimmed = cutToken
      ∧ ¬ cutToken.fits cutToken.trimmed
      ∧ (Token.padded 8 "WELL").trimmed = "WELL" ∧ (Token.padded 8 "WELL").fits "WELL" := by
  obtain ⟨-, -, hname, -, hcut⟩ := fits_and_trimmed 8
  have hnone : none ∈ Utf8.pieces cutToken.content := by decide +kernel
  exact ⟨hnone, by decide +kernel, hcut _ hnone, hname "WELL" (by decide) (by simp)⟩

end ReservoirPlot
