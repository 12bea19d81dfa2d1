/-
ReservoirPlot/Text/Blank.lean

The characters that count as blank at the end of a variable code: the 25
characters with the Unicode property White_Space.  `trimEnd` takes them off the
end of a text.  Of all the ways to split a text into a front and blanks behind it,
it takes the one whose front does not end in a blank itself (`trimmedEnd_iff`).
-/

namespace ReservoirPlot.Text

/-! ### Dropping at the end -/

/-- A list without the longest run at its end in which `drops` holds. -/
def dropEnd {α : Type _} (drops : α → Bool) (xs : List α) : List α :=
  (xs.reverse.dropWhile drops).reverse

section

variable {α : Type} {drops : α → Bool} {front back : List α}

/-- The list splits into what `dropEnd` keeps and a run in which `drops` holds. -/
theorem dropEnd_append (drops : α → Bool) (xs : List α) :
    dropEnd drops xs ++ (xs.reverse.takeWhile drops).reverse = xs := by
  rw [dropEnd, ← List.reverse_append, List.takeWhile_append_dropWhile, List.reverse_reverse]

/-- What is dropped at the end may as well not be there. -/
theorem dropEnd_append_of_forall (h : ∀ x ∈ back, drops x) (front : List α) :
    dropEnd drops (front ++ back) = dropEnd drops front := by
  rw [dropEnd, dropEnd, List.reverse_append,
    List.dropWhile_append_of_pos fun x hx => h x (List.mem_reverse.mp hx)]

/-- Nothing is dropped before what stays. -/
theorem dropEnd_concat_of_not {x : α} (h : ¬ drops x) (front : List α) :
    dropEnd drops (front ++ [x]) = front ++ [x] := by
  rw [dropEnd, List.reverse_append, List.reverse_singleton, List.singleton_append,
    List.dropWhile_cons_of_neg h, List.reverse_cons, List.reverse_reverse]

/-- What is kept does not end in something to drop. -/
theorem not_drops_of_getLast?_dropEnd {xs : List α} {x : α}
    (h : (dropEnd drops xs).getLast? = some x) : ¬ drops x := by
  have hhead := List.head?_dropWhile_not drops xs.reverse
  rw [dropEnd, List.getLast?_reverse] at h
  rw [h] at hhead
  exact Bool.eq_false_iff.mp hhead

/-- A front that does not end in something to drop is kept, and all of what is to drop behind it is
dropped. -/
theorem dropEnd_eq_front (hback : ∀ x ∈ back, drops x)
    (hfront : ∀ x, front.getLast? = some x → ¬ drops x) :
    dropEnd drops (front ++ back) = front := by
  rw [dropEnd_append_of_forall hback]
  rcases List.eq_nil_or_concat front with rfl | ⟨front, x, rfl⟩
  · rfl
  · rw [List.concat_eq_append] at hfront ⊢
    exact dropEnd_concat_of_not (hfront x List.getLast?_concat) front

end

/-! ### Blanks -/

/-- The characters with the property White_Space, as first and last of each run. -/
def blankRuns : List (Nat × Nat) :=
  [(0x09, 0x0D), (0x20, 0x20), (0x85, 0x85), (0xA0, 0xA0), (0x1680, 0x1680),
   (0x2000, 0x200A), (0x2028, 0x2029), (0x202F, 0x202F), (0x205F, 0x205F),
   (0x3000, 0x3000)]

/-- Whether a character has the property White_Space. -/
def isBlank (c : Char) : Bool :=
  blankRuns.any fun run => run.1 ≤ c.toNat && c.toNat ≤ run.2

/-- The text without the blanks at its end. -/
def trimEnd (s : String) : String :=
  String.ofList (dropEnd isBlank s.toList)

/-- The property White_Space, code point by code point. -/
def IsWhiteSpace (c : Char) : Prop :=
  (9 ≤ c.toNat ∧ c.toNat ≤ 13) ∨ c.toNat = 0x20 ∨ c.toNat = 0x85 ∨ c.toNat = 0xA0
    ∨ c.toNat = 0x1680 ∨ (0x2000 ≤ c.toNat ∧ c.toNat ≤ 0x200A) ∨ c.toNat = 0x2028
    ∨ c.toNat = 0x2029 ∨ c.toNat = 0x202F ∨ c.toNat = 0x205F ∨ c.toNat = 0x3000

theorem isBlank_iff {c : Char} : isBlank c ↔ IsWhiteSpace c := by
  simp only [isBlank, blankRuns, IsWhiteSpace, List.any_cons, List.any_nil, Bool.or_eq_true,
    Bool.and_eq_true, decide_eq_true_eq, Bool.or_false]
  omega

/-- The text is another one without the white space at its end: it is followed there by white space
alone, and does not end in white space itself. -/
structure TrimmedEnd (trimmed text : String) : Prop where
  blanks : ∃ blanks : List Char, text.toList = trimmed.toList ++ blanks
    ∧ ∀ c ∈ blanks, IsWhiteSpace c
  last : ∀ c, trimmed.toList.getLast? = some c → ¬ IsWhiteSpace c

/-- There is one such text. -/
theorem trimmedEnd_iff {trimmed text : String} :
    TrimmedEnd trimmed text ↔ trimmed = trimEnd text := by
  constructor
  · rintro ⟨⟨blanks, htext, hblanks⟩, hlast⟩
    rw [trimEnd, htext, dropEnd_eq_front (fun c hc => isBlank_iff.mpr (hblanks c hc))
      fun c hc => mt isBlank_iff.mp (hlast c hc), String.ofList_toList]
  · rintro rfl
    refine ⟨⟨(text.toList.reverse.takeWhile isBlank).reverse, ?_, fun c hc => ?_⟩, fun c hc => ?_⟩
    · rw [trimEnd, String.toList_ofList, dropEnd_append]
    · exact isBlank_iff.mp (List.all_eq_true.mp List.all_takeWhile c (List.mem_reverse.mp hc))
    · rw [trimEnd, String.toList_ofList] at hc
      exact mt isBlank_iff.mpr (not_drops_of_getLast?_dropEnd hc)

end ReservoirPlot.Text
