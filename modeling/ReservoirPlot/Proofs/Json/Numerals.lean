/-
ReservoirPlot/Proofs/Json/Numerals.lean

What stands in a text for a binary number.  `Spells` says which text a decimal number
has, by the digits before and behind the point and their value; `Shows` says which
text a bit pattern has: that of the shortest decimal that is read as the pattern, with
the sign, or `null` if the pattern is that of no number.

A decimal `c * 10 ^ t` whose first digit stands at the exponent `l` has the texts

    0.0…0 digits      l < 0, and the exponent is in the range
    digits 0…0.0      the digits end before the point
    dig.its           the point is between the digits
    d.igits e±l       the exponent is outside the range

and in each of them the digits, with the zeros that are added, have the value again.

Main result: `shows_datumText`.
-/
import Mathlib.Algebra.Order.Field.Power
import ReservoirPlot.Json.Printer
import ReservoirPlot.Proofs.Decimal.Shortest

namespace ReservoirPlot

open Binary Decimal

/-! ### Numerals -/

/-- The text of a number `v` that is not negative.  If its first digit stands at an exponent of ten
between `first` and `last`, or if it is zero, it has digits before and behind a point, and no zero that
is not needed; otherwise it has one digit before the point, and an exponent with its sign. -/
inductive Decimal.Spells (first last : Int) (v : ℚ) : List Char → Prop
  | positional {whole fraction : List Char}
    (hrange : v = 0 ∨ (10 : ℚ) ^ first ≤ v ∧ v < 10 ^ (last + 1))
    (hdigits : ∀ c ∈ whole ++ fraction, c.isDigit)
    (hwhole : whole ≠ [] ∧ (whole.head? = some '0' → whole = ['0']))
    (hfraction : fraction ≠ [] ∧ (fraction.getLast? = some '0' → fraction = ['0']))
    (hvalue : v = (Nat.ofDigitChars 10 (whole ++ fraction) 0 : Nat) / 10 ^ fraction.length) :
    Spells first last v (whole ++ '.' :: fraction)
  | scientific {lead : Char} {fraction : List Char} {exponent : Int}
    (hrange : v < 10 ^ first ∨ 10 ^ (last + 1) ≤ v)
    (hdigits : ∀ c ∈ lead :: fraction, c.isDigit)
    (hlead : lead ≠ '0') (hfraction : fraction.getLast? ≠ some '0')
    (hvalue : v = (Nat.ofDigitChars 10 (lead :: fraction) 0 : Nat)
      * 10 ^ (exponent - fraction.length)) :
    Spells first last v (lead :: (if fraction = [] then [] else '.' :: fraction)
      ++ 'e' :: (if exponent < 0 then '-' else '+') :: Nat.toDigits 10 exponent.natAbs)

/-- The text of a pattern with `p` bits of fraction and `w` bits of exponent. -/
inductive Binary.Shows (p w : Nat) (first last : Int) (bits : Nat) : List Char → Prop
  | null (h : exponentOf p w bits = 2 ^ w - 1) : Shows p w first last bits "null".toList
  | number {c : Nat} {t : Int} {text : List Char} (h : exponentOf p w bits ≠ 2 ^ w - 1)
    (hshortest : IsShortest p w (bits % 2 ^ (p + w)) c t)
    (hspells : Spells first last (c * 10 ^ t) text) :
    Shows p w first last bits ((if IsNegative p w bits then ['-'] else []) ++ text)

namespace Decimal

variable {c : Nat} {t l first last : Int}

/-! ### Digits -/

/-- The digits of a number do not begin with a zero. -/
theorem exists_toDigits_eq_cons (hc : c ≠ 0) :
    ∃ lead more, Nat.toDigits 10 c = lead :: more ∧ lead ≠ '0' := by
  induction c using Nat.strongRecOn with
  | ind c ih =>
    rcases Nat.lt_or_ge c 10 with hlt | hge
    · refine ⟨_, [], Nat.toDigits_of_lt_base hlt, ?_⟩
      exact fun h => hc ((digitChar_eq_zero_iff c hlt).mp h)
    · obtain ⟨lead, more, hdigits, hlead⟩ := ih (c / 10) (by omega) (by omega)
      refine ⟨lead, more ++ [Nat.digitChar (c % 10)], ?_, hlead⟩
      rw [Nat.toDigits_of_base_le (by decide) hge, hdigits, List.cons_append]

/-- The digits of a number end in a zero if ten divides it. -/
theorem getLast?_toDigits_ne (hc : c % 10 ≠ 0) : (Nat.toDigits 10 c).getLast? ≠ some '0' := by
  have hlast : Nat.digitChar (c % 10) ≠ '0' :=
    fun h => hc ((digitChar_eq_zero_iff _ (Nat.mod_lt c (by decide))).mp h)
  rcases Nat.lt_or_ge c 10 with hlt | hge
  · rw [Nat.toDigits_of_lt_base hlt]
    rw [Nat.mod_eq_of_lt hlt] at hlast
    simpa using hlast
  · rw [Nat.toDigits_of_base_le (by decide) hge, List.getLast?_concat]
    simpa using hlast

theorem isDigit_of_mem {ch : Char} (h : ch ∈ Nat.toDigits 10 c) : ch.isDigit :=
  Nat.isDigit_of_mem_toDigits (by decide) le_rfl h

/-- Digits with a value that neither begin nor end in a zero. -/
structure IsBare (c : Nat) (ds : List Char) : Prop where
  isDigit : ∀ ch ∈ ds, ch.isDigit
  value : Nat.ofDigitChars 10 ds 0 = c
  ne_nil : ds ≠ []
  head?_ne : ds.head? ≠ some '0'
  getLast?_ne : ds.getLast? ≠ some '0'

theorem isBare_toDigits (hc : c % 10 ≠ 0) : IsBare c (Nat.toDigits 10 c) := by
  obtain ⟨lead, more, hdigits, hlead⟩ := exists_toDigits_eq_cons fun h : c = 0 => hc (by rw [h])
  refine ⟨fun ch => isDigit_of_mem, Nat.ofDigitChars_ten_toDigits, ?_, ?_, getLast?_toDigits_ne hc⟩
  · rw [hdigits]
    exact List.cons_ne_nil _ _
  · rw [hdigits, List.head?_cons]
    exact fun h => hlead (Option.some.inj h)

/-! ### The first digit -/

/-- A decimal lies between two powers of ten, the first of which is where its first digit stands. -/
theorem leading_bounds (hc : c ≠ 0) :
    (10 : ℚ) ^ (leadingExponent ⟨c, t⟩) ≤ c * 10 ^ t
      ∧ (c : ℚ) * 10 ^ t < 10 ^ (leadingExponent ⟨c, t⟩ + 1) := by
  have hten : (10 : ℚ) ≠ 0 := by norm_num
  have hpos : (0 : ℚ) < 10 ^ t := zpow_pos (by norm_num) t
  have hlength : 0 < (Nat.toDigits 10 c).length := Nat.length_toDigits_pos
  have hlow : ((10 ^ ((Nat.toDigits 10 c).length - 1) : Nat) : ℚ) ≤ c :=
    Nat.cast_le.mpr (pow_length_le hc)
  have hhigh : (c : ℚ) < (10 ^ (Nat.toDigits 10 c).length : Nat) :=
    Nat.cast_lt.mpr (lt_pow_length c)
  have hlead : leadingExponent ⟨c, t⟩ = ((Nat.toDigits 10 c).length - 1 : Nat) + t := by
    show t + ((Nat.toDigits 10 c).length : Int) - 1 = _
    omega
  have hnext : leadingExponent ⟨c, t⟩ + 1 = ((Nat.toDigits 10 c).length : Nat) + t := by
    rw [hlead]
    omega
  rw [hnext, hlead, zpow_add₀ hten, zpow_add₀ hten, zpow_natCast, zpow_natCast]
  constructor
  · exact mul_le_mul_of_nonneg_right (by exact_mod_cast hlow) hpos.le
  · exact mul_lt_mul_of_pos_right (by exact_mod_cast hhigh) hpos

/-- The first digit of a decimal stands in a range exactly if the decimal is in the range of the
powers of ten. -/
theorem leading_mem_iff (hc : c ≠ 0) :
    (first ≤ leadingExponent ⟨c, t⟩ ∧ leadingExponent ⟨c, t⟩ ≤ last)
      ↔ (10 : ℚ) ^ first ≤ c * 10 ^ t ∧ (c : ℚ) * 10 ^ t < 10 ^ (last + 1) := by
  have hone : (1 : ℚ) < 10 := by norm_num
  obtain ⟨hlow, hhigh⟩ := leading_bounds (t := t) hc
  constructor
  · rintro ⟨hfirst, hlast⟩
    exact ⟨(zpow_le_zpow_right₀ hone.le hfirst).trans hlow,
      hhigh.trans_le (zpow_le_zpow_right₀ hone.le (by omega))⟩
  · rintro ⟨hfirst, hlast⟩
    have hfirst' := (zpow_lt_zpow_iff_right₀ hone).mp (hfirst.trans_lt hhigh)
    have hlast' := (zpow_lt_zpow_iff_right₀ hone).mp (hlow.trans_lt hlast)
    omega

/-! ### The texts -/

/-! ### Layouts of digits -/

namespace IsBare

variable {ds : List Char}

/-- Digits behind the point, with zeros before them. -/
theorem spells_behind (h : IsBare c ds) (n : Nat)
    (hrange : (10 : ℚ) ^ first ≤ c * 10 ^ (-((n + ds.length : Nat) : Int))
      ∧ (c : ℚ) * 10 ^ (-((n + ds.length : Nat) : Int)) < 10 ^ (last + 1)) :
    Spells first last (c * 10 ^ (-((n + ds.length : Nat) : Int)))
      (['0'] ++ '.' :: (List.replicate n '0' ++ ds)) := by
  have hlast : (List.replicate n '0' ++ ds).getLast? ≠ some '0' := by
    rw [List.getLast?_append_of_ne_nil _ h.ne_nil]
    exact h.getLast?_ne
  refine .positional (.inr hrange) ?_ ⟨List.cons_ne_nil _ _, fun _ => rfl⟩
    ⟨List.append_ne_nil_of_right_ne_nil _ h.ne_nil, fun hzero => absurd hzero hlast⟩ ?_
  · simp only [List.mem_append, List.mem_replicate, List.mem_singleton]
    rintro ch (rfl | ⟨-, rfl⟩ | hch)
    · rfl
    · rfl
    · exact h.isDigit ch hch
  · rw [Nat.ofDigitChars_append, Nat.ofDigitChars_append, Nat.ofDigitChars_replicate_zero]
    show _ = ((Nat.ofDigitChars 10 ds (10 ^ n * 0) : Nat) : ℚ) / _
    rw [Nat.mul_zero, h.value, List.length_append, List.length_replicate, zpow_neg, zpow_natCast,
      div_eq_mul_inv]

/-- Digits before the point, with zeros behind them. -/
theorem spells_before (h : IsBare c ds) (n : Nat)
    (hrange : (10 : ℚ) ^ first ≤ c * 10 ^ (n : Int) ∧ (c : ℚ) * 10 ^ (n : Int) < 10 ^ (last + 1)) :
    Spells first last (c * 10 ^ (n : Int)) ((ds ++ List.replicate n '0') ++ '.' :: ['0']) := by
  refine .positional (.inr hrange) ?_ ⟨List.append_ne_nil_of_left_ne_nil h.ne_nil _, ?_⟩
    ⟨List.cons_ne_nil _ _, fun _ => rfl⟩ ?_
  · simp only [List.mem_append, List.mem_replicate, List.mem_singleton]
    rintro ch ((hch | ⟨-, rfl⟩) | rfl)
    · exact h.isDigit ch hch
    · rfl
    · rfl
  · intro hzero
    rw [List.head?_append_of_ne_nil _ h.ne_nil] at hzero
    exact absurd hzero h.head?_ne
  · rw [Nat.ofDigitChars_append, Nat.ofDigitChars_append, Nat.ofDigitChars_replicate_zero,
      h.value, Nat.ofDigitChars_cons, Nat.ofDigitChars_nil]
    show _ = ((10 * (10 ^ n * c) + 0 : Nat) : ℚ) / 10 ^ 1
    push_cast
    rw [zpow_natCast]
    ring

/-- Digits on both sides of the point. -/
theorem spells_around (h : IsBare c ds) {whole n : Nat} (hwhole : whole ≠ 0) (hn : n ≠ 0)
    (hlength : ds.length = whole + n)
    (hrange : (10 : ℚ) ^ first ≤ c * 10 ^ (-(n : Int))
      ∧ (c : ℚ) * 10 ^ (-(n : Int)) < 10 ^ (last + 1)) :
    Spells first last (c * 10 ^ (-(n : Int))) (ds.take whole ++ '.' :: ds.drop whole) := by
  have hrest : (ds.drop whole).length = n := by
    rw [List.length_drop, hlength, Nat.add_sub_cancel_left]
  refine .positional (.inr hrange) ?_ ⟨?_, ?_⟩ ⟨?_, ?_⟩ ?_
  · rw [List.take_append_drop]
    exact h.isDigit
  · rw [Ne, List.take_eq_nil_iff, not_or]
    exact ⟨hwhole, h.ne_nil⟩
  · intro hzero
    rw [List.head?_take, if_neg hwhole] at hzero
    exact absurd hzero h.head?_ne
  · rw [← List.length_pos_iff, hrest]
    exact Nat.pos_of_ne_zero hn
  · intro hzero
    rw [List.getLast?_drop, if_neg (by omega)] at hzero
    exact absurd hzero h.getLast?_ne
  · rw [List.take_append_drop, h.value, hrest, zpow_neg, zpow_natCast, div_eq_mul_inv]

/-- One digit before the point, and an exponent. -/
theorem spells_scientific (h : IsBare c ds) (ht : t = -(ds.length : Int) + 1 + l)
    (hrange : (c : ℚ) * 10 ^ t < 10 ^ first ∨ (10 : ℚ) ^ (last + 1) ≤ c * 10 ^ t) :
    Spells first last (c * 10 ^ t) (scientificText ds l) := by
  obtain ⟨lead, more, rfl⟩ := List.exists_cons_of_ne_nil h.ne_nil
  have htext : scientificText (lead :: more) l = lead :: (if more = [] then [] else '.' :: more)
      ++ 'e' :: (if l < 0 then '-' else '+') :: Nat.toDigits 10 l.natAbs := by
    cases more with
    | nil => rfl
    | cons d rest => rfl
  have hexponent : t = l - more.length := by
    rw [ht, List.length_cons]
    omega
  have hlast := h.getLast?_ne
  rw [htext]
  refine .scientific hrange h.isDigit (fun hzero => h.head?_ne (by rw [hzero]; rfl)) ?_ ?_
  · cases more with
    | nil => exact nofun
    | cons d rest => rwa [List.getLast?_cons_cons] at hlast
  · rw [h.value, hexponent]

end IsBare

theorem spells_positionalText (hc : c % 10 ≠ 0)
    (hrange : (10 : ℚ) ^ first ≤ c * 10 ^ t ∧ (c : ℚ) * 10 ^ t < 10 ^ (last + 1)) :
    Spells first last (c * 10 ^ t)
      (positionalText true (Nat.toDigits 10 c) (leadingExponent ⟨c, t⟩)) := by
  have hbare := isBare_toDigits hc
  have hlead : leadingExponent ⟨c, t⟩ = t + (Nat.toDigits 10 c).length - 1 := rfl
  have hlength := List.length_pos_iff.mpr hbare.ne_nil
  generalize leadingExponent ⟨c, t⟩ = l at hlead ⊢
  generalize Nat.toDigits 10 c = ds at *
  rw [positionalText]
  dsimp only
  -- The point is before, behind or among the digits.
  by_cases hneg : l < 0
  · rw [if_pos hneg]
    obtain ⟨n, hn⟩ : ∃ n : Nat, (-l - 1).toNat = n := ⟨_, rfl⟩
    obtain rfl : t = -((n + ds.length : Nat) : Int) := by omega
    rw [hn]
    exact hbare.spells_behind n hrange
  · rw [if_neg hneg]
    by_cases hends : ds.length ≤ l.toNat + 1
    · rw [if_pos hends, if_pos rfl]
      obtain ⟨n, rfl⟩ : ∃ n : Nat, t = n := ⟨t.toNat, by omega⟩
      have hzeros : l.toNat + 1 - ds.length = n := by omega
      rw [hzeros]
      exact hbare.spells_before n hrange
    · rw [if_neg hends]
      obtain ⟨n, hn⟩ : ∃ n : Nat, ds.length = l.toNat + 1 + n := Nat.exists_eq_add_of_le (by omega)
      obtain rfl : t = -(n : Int) := by omega
      exact hbare.spells_around (Nat.succ_ne_zero _) (by omega) hn hrange

theorem spells_scientificText (hc : c % 10 ≠ 0)
    (hrange : (c : ℚ) * 10 ^ t < 10 ^ first ∨ (10 : ℚ) ^ (last + 1) ≤ c * 10 ^ t) :
    Spells first last (c * 10 ^ t)
      (scientificText (Nat.toDigits 10 c) (leadingExponent ⟨c, t⟩)) := by
  refine (isBare_toDigits hc).spells_scientific ?_ hrange
  show t = _ + (t + ((Nat.toDigits 10 c).length : Int) - 1)
  omega

/-- A decimal that does not end in a zero is written so. -/
theorem spells_text (hc : c % 10 ≠ 0) : Spells first last (c * 10 ^ t)
    (Style.text ⟨fun e => first ≤ e && e ≤ last, true, .even⟩ ⟨c, t⟩) := by
  have hc0 : c ≠ 0 := fun h => hc (by rw [h])
  have hmem : (first ≤ leadingExponent ⟨c, t⟩ ∧ leadingExponent ⟨c, t⟩ ≤ last) ↔ _ :=
    leading_mem_iff hc0
  rw [Style.text]
  dsimp only
  rw [if_neg hc0]
  split
  · next hin =>
    rw [Bool.and_eq_true, decide_eq_true_eq, decide_eq_true_eq] at hin
    exact spells_positionalText hc (hmem.mp hin)
  · next hout =>
    rw [Bool.and_eq_true, decide_eq_true_eq, decide_eq_true_eq, hmem, not_and_or, not_le,
      not_lt] at hout
    exact spells_scientificText hc hout

theorem spells_zero (hfirst : first ≤ 0) (hlast : 0 ≤ last) : Spells first last 0
    (Style.text ⟨fun e => first ≤ e && e ≤ last, true, .even⟩ ⟨0, 0⟩) := by
  have htext : Style.text ⟨fun e => first ≤ e && e ≤ last, true, .even⟩ ⟨0, 0⟩
      = ['0'] ++ '.' :: ['0'] := by
    rw [Style.text]
    dsimp only
    rw [if_pos rfl, if_pos (by simp [hfirst, hlast])]
    rfl
  have hdigits : ∀ ch ∈ ['0'] ++ ['0'], ch.isDigit := by
    intro ch hch
    rw [List.mem_append, List.mem_singleton, or_self] at hch
    rw [hch]
    rfl
  rw [htext]
  exact .positional (.inl rfl) hdigits ⟨List.cons_ne_nil _ _, fun _ => rfl⟩
    ⟨List.cons_ne_nil _ _, fun _ => rfl⟩ (by simp [Nat.ofDigitChars])

end Decimal

/-! ### Binary numbers -/

namespace Binary

theorem fractionOf_mod (p w bits : Nat) : fractionOf p (bits % 2 ^ (p + w)) = fractionOf p bits :=
  Nat.mod_mod_of_dvd bits (Nat.pow_dvd_pow 2 (Nat.le_add_right p w))

theorem exponentOf_mod (p w bits : Nat) :
    exponentOf p w (bits % 2 ^ (p + w)) = exponentOf p w bits := by
  rw [exponentOf, exponentOf, Nat.pow_add, Nat.mod_mul_right_div_self, Nat.mod_mod]

/-- Every pattern has its text. -/
theorem shows_datumText (f : Format) {first last : Int} (hf : 0 < f.fractionBits)
    (hfirst : first ≤ 0) (hlast : 0 ≤ last) (bits : Nat) :
    Shows f.fractionBits f.exponentBits first last bits
      (Json.datumText ⟨fun e => first ≤ e && e ≤ last, true, .even⟩ f (f.decode bits)).toList := by
  by_cases hexponent : exponentOf f.fractionBits f.exponentBits bits = 2 ^ f.exponentBits - 1
  · by_cases hfraction : fractionOf f.fractionBits bits = 0
    · rw [f.decode_of_infinite hexponent hfraction]
      exact .null hexponent
    · rw [f.decode_of_nan hexponent hfraction]
      exact .null hexponent
  · have hbelow : bits % 2 ^ (f.fractionBits + f.exponentBits) < f.infinity :=
      f.magnitude_lt_infinity hexponent
    -- The sign has no part in the digits.
    have hparts : significandOf f.fractionBits f.exponentBits bits
          = significandOf f.fractionBits f.exponentBits
            (bits % 2 ^ (f.fractionBits + f.exponentBits))
        ∧ placeOf f.fractionBits f.exponentBits bits
          = placeOf f.fractionBits f.exponentBits
            (bits % 2 ^ (f.fractionBits + f.exponentBits)) := by
      rw [significandOf, significandOf, placeOf, placeOf, exponentOf_mod, fractionOf_mod]
      exact ⟨rfl, rfl⟩
    rw [f.decode_of_finite hexponent, hparts.1, hparts.2, Json.datumText, Style.finite,
      String.toList_ofList]
    simp only [decide_eq_true_eq]
    rcases Nat.eq_zero_or_pos (bits % 2 ^ (f.fractionBits + f.exponentBits)) with hzero | hpos
    · have hsignificand : significandOf f.fractionBits f.exponentBits 0 = 0 := by
        simp [significandOf, exponentOf, fractionOf]
      have hvalue : ((0 : Nat) : ℚ) * 10 ^ (0 : Int) = 0 := by rw [Nat.cast_zero, zero_mul]
      have hshortest : IsShortest f.fractionBits f.exponentBits
          (bits % 2 ^ (f.fractionBits + f.exponentBits)) 0 0 := by
        rw [hzero]
        exact isShortest_zero ..
      rw [hzero, if_pos hsignificand]
      refine .number hexponent hshortest ?_
      rw [hvalue]
      exact spells_zero hfirst hlast
    · obtain ⟨c, t, hshort, hshortest, hlast0⟩ := isShortest_shortest hf hpos hbelow
      rw [if_neg (significandOf_ne_zero f hpos (hbelow.trans f.infinity_lt_sign)), hshort]
      exact .number hexponent hshortest (spells_text hlast0)

end Binary

end ReservoirPlot
