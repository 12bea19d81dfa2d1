/-
ReservoirPlot/Proofs/Server/Names.lean

Names that are free.  A taken base leaves fewer taken names than there are numbers
to try, so one of the numbered names is free (`exists_mem_numberedNames`).  Names
chosen in turn are therefore new and distinct.
-/
import Mathlib.Data.List.Nodup
import Mathlib.Data.List.Perm.Subperm
import ReservoirPlot.Server.Registry

namespace ReservoirPlot

variable {taken bases : List String} {base name : String}

theorem numbered_injective (base : String) : Function.Injective (numbered base) := by
  intro i j h
  have hdigits : Nat.toDigits 10 i = Nat.toDigits 10 j := by
    rw [← Nat.toList_repr, ← Nat.toList_repr]
    exact congrArg String.toList ((String.append_right_inj _).mp h)
  calc i = Nat.ofDigitChars 10 (Nat.toDigits 10 i) 0 := Nat.ofDigitChars_ten_toDigits.symm
    _ = Nat.ofDigitChars 10 (Nat.toDigits 10 j) 0 := by rw [hdigits]
    _ = j := Nat.ofDigitChars_ten_toDigits

/-- A number makes a name longer. -/
theorem numbered_ne_base (base : String) (i : Nat) : numbered base i ≠ base := by
  intro h
  have hlength := congrArg String.length h
  rw [numbered, String.length_append, String.length_append] at hlength
  have hmark : "_".length = 1 := rfl
  omega

/-- The base with the numbers from 1 to `n`. -/
def numberedNames (base : String) (n : Nat) : List String :=
  (List.range n).map fun i => numbered base (i + 1)

theorem freeName_of_mem (h : base ∈ taken) : freeName taken base
    = ((numberedNames base taken.length).find? fun name => name ∉ taken).getD base :=
  if_pos h

theorem nodup_cons_numberedNames (base : String) (n : Nat) :
    (base :: numberedNames base n).Nodup := by
  refine List.nodup_cons.mpr ⟨?_, List.Nodup.map ?_ List.nodup_range⟩
  · intro hmem
    obtain ⟨i, -, hi⟩ := List.mem_map.mp hmem
    exact numbered_ne_base base _ hi
  · intro i j h
    exact Nat.succ.inj (numbered_injective base h)

/-- Of as many numbers as there are names taken, one is free: the base is taken too. -/
theorem exists_mem_numberedNames (h : base ∈ taken) :
    ∃ name ∈ numberedNames base taken.length, name ∉ taken := by
  by_contra hnone
  -- Otherwise there are more distinct names among the taken ones than there are taken ones.
  have hsubset : base :: numberedNames base taken.length ⊆ taken := by
    refine List.cons_subset.mpr ⟨h, ?_⟩
    intro name hname
    by_contra hfree
    exact hnone ⟨name, hname, hfree⟩
  have hle := (nodup_cons_numberedNames base taken.length).length_le_of_subset hsubset
  rw [List.length_cons, numberedNames, List.length_map, List.length_range] at hle
  omega

/-- A free name is not taken. -/
theorem freeName_not_mem (taken : List String) (base : String) : freeName taken base ∉ taken := by
  by_cases htaken : base ∈ taken
  · rw [freeName_of_mem htaken]
    rcases hfind : (numberedNames base taken.length).find? fun name => name ∉ taken with - | name
    · -- The base itself would be the answer, but the search does not fail.
      obtain ⟨name, hname, hfree⟩ := exists_mem_numberedNames htaken
      exact absurd (decide_eq_true hfree) (List.find?_eq_none.mp hfind name hname)
    · have hfree := List.find?_some hfind
      exact of_decide_eq_true hfree
  · rwa [freeName, if_neg htaken]

theorem not_mem_of_mem_freeNames (h : name ∈ freeNames taken bases) : name ∉ taken := by
  -- More names are taken with each base, so the induction is over all taken names at once.
  induction bases generalizing taken with
  | nil => exact absurd h List.not_mem_nil
  | cons base rest ih =>
    rcases List.mem_cons.mp h with rfl | h
    · exact freeName_not_mem taken base
    · exact fun hmem => ih h (List.mem_append_left _ hmem)

/-- Names chosen in turn are distinct. -/
theorem nodup_freeNames (taken bases : List String) : (freeNames taken bases).Nodup := by
  induction bases generalizing taken with
  | nil => exact List.nodup_nil
  | cons base rest ih =>
    refine List.nodup_cons.mpr ⟨?_, ih _⟩
    intro hmem
    exact not_mem_of_mem_freeNames hmem (List.mem_append_right _ (List.mem_singleton_self _))

/-- A base that is not taken is given as it is, to itself or to an earlier base. -/
theorem mem_freeNames_of_not_mem (h : base ∈ bases) (hfree : base ∉ taken) :
    base ∈ freeNames taken bases := by
  induction bases generalizing taken with
  | nil => exact absurd h List.not_mem_nil
  | cons first rest ih =>
    by_cases hfirst : base = freeName taken first
    · exact hfirst ▸ List.mem_cons_self
    · refine List.mem_cons_of_mem _ (ih ?_ ?_)
      · refine (List.mem_cons.mp h).resolve_left ?_
        rintro rfl
        exact hfirst (if_neg hfree).symm
      · rw [List.mem_append, List.mem_singleton]
        exact not_or.mpr ⟨hfree, hfirst⟩

/-- The bases themselves are given exactly if they are distinct and none of them is taken. -/
theorem perm_freeNames_iff :
    bases.Perm (freeNames taken bases) ↔ bases.Nodup ∧ ∀ base ∈ bases, base ∉ taken := by
  constructor
  · intro h
    refine ⟨h.nodup_iff.mpr (nodup_freeNames taken bases), ?_⟩
    exact fun base hbase => not_mem_of_mem_freeNames (h.mem_iff.mp hbase)
  · rintro ⟨hnodup, hfree⟩
    have hsubset : bases ⊆ freeNames taken bases :=
      fun base hbase => mem_freeNames_of_not_mem hbase (hfree base hbase)
    exact (hnodup.subperm hsubset).perm_of_length_le (Nat.le_of_eq (length_freeNames taken bases))

end ReservoirPlot
