/-
ReservoirPlot/Proofs/Series/Keywords.lean

Which keyword a variable has, and which variables share one.  Entries are set in turn
under the tokens made from their keys, so a variable has the keyword of the last entry
whose key makes its code, and else the one that it had before (`keyword?_extend`).  A key
of at most four bytes makes a code exactly if the code fits it.  A longer one fits no
code, but it makes the code of its first four bytes.

In the fixed table each keyword stands for one variable; further entries may set the
keyword of a variable to that of another one.

Main result: `keyword_of_extensions`.
-/
import ReservoirPlot.Proofs.Series.Conversion
import ReservoirPlot.Proofs.Token

namespace ReservoirPlot

namespace KeywordTable

/-- A keyword that a code has is in an entry for the code. -/
theorem mem_entries_of_keyword? {t : KeywordTable} {code : VariableCode} {keyword : String}
    (h : t.keyword? code = some keyword) : (code, keyword) ∈ t.entries := by
  obtain ⟨entry, hfind, rfl⟩ := Option.map_eq_some_iff.mp h
  have hfits := List.find?_some hfind
  obtain rfl := of_decide_eq_true hfits
  exact List.mem_of_find?_eq_some hfind

/-! ### Entries set in turn -/

/-- The keyword of the last entry of which the key is one of those asked for. -/
def lastKeyword? (asked : String → Bool) (entries : List (String × String)) : Option String :=
  ((entries.filter (asked ·.1)).getLast?).map Prod.snd

/-- An entry counts if none of the later ones does. -/
theorem lastKeyword?_cons (asked : String → Bool) (entry : String × String)
    (entries : List (String × String)) : lastKeyword? asked (entry :: entries)
      = (lastKeyword? asked entries).or (if asked entry.1 then some entry.2 else none) := by
  rw [lastKeyword?, lastKeyword?, List.filter_cons]
  by_cases h : asked entry.1
  · rw [if_pos h, if_pos h, List.getLast?_cons]
    cases (entries.filter (asked ·.1)).getLast? <;> rfl
  · rw [if_neg h, if_neg h, Option.or_none]

/-- Keys may be asked for in any way that admits the same ones. -/
theorem lastKeyword?_congr {asked asked' : String → Bool} {entries : List (String × String)}
    (h : ∀ entry ∈ entries, asked entry.1 = asked' entry.1) :
    lastKeyword? asked entries = lastKeyword? asked' entries := by
  rw [lastKeyword?, lastKeyword?, List.filter_congr h]

/-- Entries of a key that is not asked for may as well not be there. -/
theorem lastKeyword?_filter_ne {asked : String → Bool} {key : String} (h : ¬ asked key)
    (entries : List (String × String)) :
    lastKeyword? asked (entries.filter (·.1 ≠ key)) = lastKeyword? asked entries := by
  have hsame : ∀ entry ∈ entries, (asked entry.1 && decide (entry.1 ≠ key)) = asked entry.1 := by
    intro entry _
    by_cases hkey : entry.1 = key
    · rw [hkey, Bool.eq_false_iff.mpr h, Bool.false_and]
    · rw [decide_eq_true hkey, Bool.and_true]
  rw [lastKeyword?, lastKeyword?, List.filter_filter, List.filter_congr hsame]

/-- The last entry counts whose key makes the code, and if there is none, the table. -/
theorem keyword?_extend (t : KeywordTable) (entries : List (String × String))
    (code : VariableCode) : (t.extend entries).keyword? code
      = (lastKeyword? (Token.padded 4 · = code) entries).or (t.keyword? code) := by
  -- The first entry becomes part of the table, behind all that the others set.
  induction entries generalizing t with
  | nil => rfl
  | cons entry entries ih =>
    rw [extend_cons, ih, keyword?_set, lastKeyword?_cons, Option.or_assoc]
    by_cases h : Token.padded 4 entry.1 = code
    · simp only [h, if_true, decide_true, Option.some_or]
    · simp only [h, if_false, decide_false, Bool.false_eq_true, Option.none_or]

/-- To extend a table by several maps is to set the entries of all of them. -/
theorem foldl_extend (t : KeywordTable) (maps : List (List (String × String))) :
    maps.foldl extend t = t.extend maps.flatten :=
  List.foldl_flatten.symm

/-- A key that is short enough makes exactly the codes that fit it. -/
theorem padded_eq_iff_fits {key : String} {code : VariableCode}
    (h : Token.padded 4 key = code → (Utf8.encode key).length ≤ 4) :
    Token.padded 4 key = code ↔ code.fits key := by
  constructor
  · rintro rfl
    exact Token.padded_fits (h rfl)
  · intro hfits
    exact (Token.eq_padded_of_fits hfits).symm

/-- Among keys that are short enough, those that make a code are those that the code fits. -/
theorem lastKeyword?_fits {entries : List (String × String)} {code : VariableCode}
    (h : ∀ entry ∈ entries, Token.padded 4 entry.1 = code → (Utf8.encode entry.1).length ≤ 4) :
    lastKeyword? (Token.padded 4 · = code) entries = lastKeyword? (code.fits ·) entries := by
  apply lastKeyword?_congr
  intro entry hentry
  rw [Bool.eq_iff_iff, decide_eq_true_eq]
  exact padded_eq_iff_fits (h entry hentry)

/-- The fixed keywords are those of the codes that their keys fit. -/
theorem keyword?_field (code : VariableCode) :
    field.keyword? code = lastKeyword? (code.fits ·) fieldEntries := by
  have hshort : ∀ entry ∈ fieldEntries, (Utf8.encode entry.1).length ≤ 4 := by decide
  rw [field, keyword?_extend, keyword?_empty, Option.or_none]
  exact lastKeyword?_fits fun entry hentry _ => hshort entry hentry

/-- **Which keyword a variable has.**  Let the fixed table be extended by some maps in turn.  A
variable has the keyword of the last entry whose key makes its code, with blanks behind the key or
cut at four bytes; if there is none, it has that of the fixed table.  If no longer key makes the
code, these are the entries whose key the code fits.  The entries of a key decide the keyword of no
other code than the one that it makes.  A longer key makes that of its first four bytes, which does
not fit it. -/
theorem keyword_of_extensions (maps : List (List (String × String))) (code : VariableCode) :
    (maps.foldl extend field).keyword? code
      = (lastKeyword? (Token.padded 4 · = code) maps.flatten).or (field.keyword? code)
    ∧ ((∀ entry ∈ maps.flatten,
        Token.padded 4 entry.1 = code → (Utf8.encode entry.1).length ≤ 4) →
      (maps.foldl extend field).keyword? code
        = (lastKeyword? (code.fits ·) maps.flatten).or (field.keyword? code))
    ∧ field.keyword? code = lastKeyword? (code.fits ·) fieldEntries
    ∧ (∀ key, Token.padded 4 key ≠ code → (maps.foldl extend field).keyword? code
      = ((maps.map (·.filter (·.1 ≠ key))).foldl extend field).keyword? code)
    ∧ ∀ key, 4 < (Utf8.encode key).length →
      (Token.padded 4 key = code ↔ code.bytes = (Utf8.encode key).take 4) ∧ ¬ code.fits key := by
  have hlast : (maps.foldl extend field).keyword? code
      = (lastKeyword? (Token.padded 4 · = code) maps.flatten).or (field.keyword? code) := by
    rw [foldl_extend, keyword?_extend]
  refine ⟨hlast, fun hshort => ?_, keyword?_field code, fun key hkey => ?_, fun key hlong => ?_⟩
  · rw [hlast, lastKeyword?_fits hshort]
  · rw [hlast, foldl_extend, keyword?_extend, ← List.filter_flatten,
      lastKeyword?_filter_ne (by simpa using hkey)]
  · have hbytes := Token.bytes_padded_of_le hlong.le
    refine ⟨⟨?_, fun hcode => Token.ext (hbytes.trans hcode.symm)⟩, Token.not_fits_of_lt hlong⟩
    rintro rfl
    exact hbytes

/-- Two maps, of which the second names a code again, with a blank behind it. -/
def repeatedKeys : List (List (String × String)) :=
  [[("BHP", "FBHP")], [("BHP ", "FPRS"), ("QOP", "FOIL")]]

theorem keyword_of_repeatedKeys :
    (∀ entry ∈ repeatedKeys.flatten,
        Token.padded 4 entry.1 = .padded 4 "BHP" → (Utf8.encode entry.1).length ≤ 4)
      ∧ (repeatedKeys.foldl extend field).keyword? (.padded 4 "BHP")
        = (lastKeyword? ((Token.padded 4 "BHP").fits ·) repeatedKeys.flatten).or
          (field.keyword? (.padded 4 "BHP"))
      ∧ (repeatedKeys.foldl extend field).keyword? (.padded 4 "BHP") = some "FPRS"
      ∧ Token.padded 4 "QOP" ≠ .padded 4 "BHP"
      ∧ (repeatedKeys.foldl extend field).keyword? (.padded 4 "BHP")
        = ((repeatedKeys.map (·.filter (·.1 ≠ "QOP"))).foldl extend field).keyword?
          (.padded 4 "BHP")
      ∧ 4 < (Utf8.encode "WCUTX").length
      ∧ (Token.padded 4 "WCUTX" = .padded 4 "BHP"
        ↔ (Token.padded 4 "BHP").bytes = (Utf8.encode "WCUTX").take 4)
      ∧ ¬ (Token.padded 4 "BHP").fits "WCUTX" := by
  obtain ⟨-, hfits, -, hother, hlong⟩ := keyword_of_extensions repeatedKeys (.padded 4 "BHP")
  have hshort : ∀ entry ∈ repeatedKeys.flatten,
      Token.padded 4 entry.1 = .padded 4 "BHP" → (Utf8.encode entry.1).length ≤ 4 := by decide
  exact ⟨hshort, hfits hshort, by decide, by decide, hother _ (by decide), by decide,
    hlong "WCUTX" (by decide)⟩

/-- No code fits a key that is too long by one letter, but the code of its first four bytes has the
keyword of the entry, and no longer that of the fixed table. -/
theorem keyword_of_longKey :
    (∀ code : VariableCode, ¬ code.fits "WCUTX")
      ∧ field.keyword? (.padded 4 "WCUT") = some "FWCT"
      ∧ ([[("WCUTX", "FXXX")]].foldl extend field).keyword? (.padded 4 "WCUT") = some "FXXX" :=
  ⟨fun _ => Token.not_fits_of_lt (by decide), by decide, by decide⟩

/-! ### Shared keywords -/

/-- No two variables have the same keyword in the fixed table. -/
theorem field_injective {code other : VariableCode} {keyword : String}
    (h : field.keyword? code = some keyword) (h' : field.keyword? other = some keyword) :
    code = other := by
  have hdistinct : ∀ a ∈ field.entries, ∀ b ∈ field.entries, a.2 = b.2 → a.1 = b.1 := by
    decide +kernel
  exact hdistinct _ (mem_entries_of_keyword? h) _ (mem_entries_of_keyword? h') rfl

end KeywordTable

/-- Under the fixed keywords, vectors of one keyword are vectors of one variable. -/
theorem Plot.code_eq_of_seriesWith_field {p : Plot} {className instanceName : String}
    {series : Series} (h : p.seriesWith className instanceName .field = .ok series)
    {v w : SummaryVector} (hv : v ∈ series.vectors) (hw : w ∈ series.vectors)
    (hkeyword : v.keyword = w.keyword) : v.code = w.code := by
  have hvcode := Plot.keyword?_of_seriesWith h hv
  have hwcode := Plot.keyword?_of_seriesWith h hw
  rw [hkeyword] at hvcode
  exact KeywordTable.field_injective hvcode hwcode

/-- Without further keywords, the fixed ones are all. -/
theorem SeriesOptions.table_eq_field {o : SeriesOptions} (ho : o.keywords = []) :
    o.table = .field := by
  rw [table, ho, KeywordTable.extend_nil]

/-- With the fixed keywords alone, vectors of one keyword are vectors of one variable. -/
theorem Plot.code_eq_of_keyword_eq {p : Plot} {o : SeriesOptions} {series : Series}
    (h : p.series o = .ok series) (ho : o.keywords = []) {v w : SummaryVector}
    (hv : v ∈ series.vectors) (hw : w ∈ series.vectors) (hkeyword : v.keyword = w.keyword) :
    v.code = w.code := by
  rw [Plot.series, SeriesOptions.table_eq_field ho] at h
  exact Plot.code_eq_of_seriesWith_field h hv hw hkeyword

end ReservoirPlot
