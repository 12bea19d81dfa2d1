/-
ReservoirPlot/Proofs/Server/NameSearch.lean

The search for a free name.  `freeName` tries as many numbers as there are names
taken, since one of these must be free.  A search with no such bound, which counts
up in 32 bits until a name is free, finds the same name and never gets to the end
of its numbers, as long as fewer names are taken than there are numbers:

    countFrom       the search of one name from a number on
    countedName     a base, or the name found from 1 on
    countedNames    names for several bases in turn

Main result: `freeName_is_first`.
-/
import Mathlib.Algebra.Group.Nat.Defs
import Mathlib.Data.List.Range
import ReservoirPlot.Proofs.Server.Names

namespace ReservoirPlot

variable {taken bases : List String} {base : String}

/-! ### Counting -/

/-- What comes of a search: the names that were tried, and the one that was found free.  None is
found if the counter has no next number. -/
structure NameSearch where
  tried : List String
  found? : Option String
deriving DecidableEq, Repr

/-- Below the greatest number, counting on does not wrap. -/
theorem toInt_succ_of_lt {i : Int32} (h : i < Int32.maxValue) : (i + 1).toInt = i.toInt + 1 := by
  have hmax : Int32.maxValue.toInt = 2 ^ 31 - 1 := by decide
  have hone : (1 : Int32).toInt = 1 := by decide
  have hmin := i.le_toInt
  rw [Int32.lt_iff_toInt_lt, hmax] at h
  rw [Int32.toInt_add, hone, Int.bmod_eq_of_le] <;> omega

/-- Tries the numbers from one on until a name is free.  The counter goes on to the next number
before a number is used, so the last of all numbers cannot be used. -/
def countFrom (taken : List String) (base : String) (i : Int32) : NameSearch :=
  if h : i < Int32.maxValue then
    let name := numbered base i.toNatClampNeg
    if name ∉ taken then ⟨[name], some name⟩
    else
      let later := countFrom taken base (i + 1)
      ⟨name :: later.tried, later.found?⟩
  else ⟨[], none⟩
termination_by (Int32.maxValue.toInt - i.toInt).toNat
decreasing_by
  have hnext := toInt_succ_of_lt h
  rw [Int32.lt_iff_toInt_lt] at h
  omega

/-- The base, or the name that is found by counting from 1 on; none if the numbers run out. -/
def countedName (taken : List String) (base : String) : Option String :=
  if base ∈ taken then (countFrom taken base 1).found? else some base

/-- Names for several bases in turn, found by counting. -/
def countedNames (taken : List String) : List String → Option (List String)
  | [] => some []
  | base :: rest => do
    let name ← countedName taken base
    let names ← countedNames (taken ++ [name]) rest
    return name :: names

theorem toInt_ofNat_of_lt {i : Nat} (h : i < 2 ^ 31 - 1) : (Int32.ofNat i).toInt = i :=
  Int32.toInt_ofNat_of_lt (Nat.lt_of_lt_of_le h (by decide))

/-- One step of the search, while the counter has a next number. -/
theorem countFrom_ofNat {i : Nat} (h : i < 2 ^ 31 - 1) (taken : List String) (base : String) :
    countFrom taken base (Int32.ofNat i)
      = if numbered base i ∉ taken then ⟨[numbered base i], some (numbered base i)⟩
        else ⟨numbered base i :: (countFrom taken base (Int32.ofNat (i + 1))).tried,
          (countFrom taken base (Int32.ofNat (i + 1))).found?⟩ := by
  have hmax : Int32.maxValue.toInt = 2 ^ 31 - 1 := by decide
  have hlt : Int32.ofNat i < Int32.maxValue := by
    rw [Int32.lt_iff_toInt_lt, toInt_ofNat_of_lt h, hmax]
    omega
  have hclamp : (Int32.ofNat i).toNatClampNeg = i := by
    rw [Int32.toNatClampNeg, toInt_ofNat_of_lt h, Int.toNat_natCast]
  rw [countFrom, dif_pos hlt, hclamp, Int32.ofNat_add]
  rfl

/-- Counting gets to the first number that is free. -/
theorem countFrom_of_first {a n : Nat} (hlt : a + n < 2 ^ 31 - 1)
    (htaken : ∀ j, a ≤ j → j < a + n → numbered base j ∈ taken)
    (hfree : numbered base (a + n) ∉ taken) : countFrom taken base (Int32.ofNat a)
      = ⟨(List.range' a (n + 1)).map (numbered base), some (numbered base (a + n))⟩ := by
  -- By how far the free number is off; the counter moves towards it.
  induction n generalizing a with
  | zero =>
    rw [Nat.add_zero] at hlt hfree ⊢
    rw [countFrom_ofNat hlt, if_pos hfree]
    rfl
  | succ n ih =>
    have hrest : a + (n + 1) = a + 1 + n := by omega
    have hfirst : numbered base a ∈ taken := htaken a (Nat.le_refl a) (by omega)
    rw [hrest] at hlt htaken hfree ⊢
    rw [countFrom_ofNat (by omega), if_neg (not_not.mpr hfirst),
      ih hlt (fun j hj => htaken j (by omega)) hfree]
    rfl

/-! ### The first free number -/

/-- The number of a free name is the least that makes it free, and no greater than the number of
names that are taken. -/
theorem exists_first_number (h : base ∈ taken) : ∃ n < taken.length,
    freeName taken base = numbered base (n + 1) ∧ numbered base (n + 1) ∉ taken
      ∧ ∀ j, 1 ≤ j → j < n + 1 → numbered base j ∈ taken := by
  obtain ⟨free, hmem, hfree⟩ := exists_mem_numberedNames h
  have hfound : ((numberedNames base taken.length).find? fun name => name ∉ taken).isSome :=
    List.find?_isSome.mpr ⟨free, hmem, decide_eq_true hfree⟩
  obtain ⟨name, hname⟩ := Option.isSome_iff_exists.mp hfound
  -- Numbers are tried from 1 on, so the one at index `n` is `n + 1`, and all below it are taken.
  have hfirst := hname
  rw [numberedNames, List.find?_map] at hfirst
  obtain ⟨n, hn, rfl⟩ := Option.map_eq_some_iff.mp hfirst
  obtain ⟨hp, hlt, hbefore⟩ := List.find?_range_eq_some.mp hn
  refine ⟨n, List.mem_range.mp hlt, ?_, of_decide_eq_true hp, ?_⟩
  · rw [freeName_of_mem h, hname]
    rfl
  · intro j hpos hj
    obtain ⟨i, rfl⟩ := Nat.exists_eq_add_of_le' hpos
    simpa using hbefore i (by omega)

/-- Counting from 1 on finds the first number that is free, and tries none behind it. -/
theorem countFrom_one {n : Nat} (hlt : n + 1 < 2 ^ 31 - 1)
    (hfree : numbered base (n + 1) ∉ taken)
    (htaken : ∀ j, 1 ≤ j → j < n + 1 → numbered base j ∈ taken) : countFrom taken base 1
      = ⟨(List.range' 1 (n + 1)).map (numbered base), some (numbered base (n + 1))⟩ := by
  rw [Nat.add_comm n 1] at hlt hfree htaken
  have hcount := countFrom_of_first hlt htaken hfree
  rwa [Nat.add_comm 1 n] at hcount

theorem countedName_eq_freeName (hlt : taken.length < 2 ^ 31 - 1) (base : String) :
    countedName taken base = some (freeName taken base) := by
  by_cases h : base ∈ taken
  · obtain ⟨n, hn, hname, hfree, htaken⟩ := exists_first_number h
    rw [countedName, if_pos h, countFrom_one (by omega) hfree htaken, hname]
  · rw [countedName, if_neg h, freeName, if_neg h]

/-- Each name that is chosen is taken for the bases behind it, so there must be numbers for all. -/
theorem countedNames_eq_freeNames (h : taken.length + bases.length < 2 ^ 31) :
    countedNames taken bases = some (freeNames taken bases) := by
  induction bases generalizing taken with
  | nil => rfl
  | cons base rest ih =>
    rw [List.length_cons] at h
    rw [countedNames, countedName_eq_freeName (by omega)]
    show (do let names ← countedNames (taken ++ [freeName taken base]) rest; _) = _
    rw [ih (by rw [List.length_append, List.length_singleton]; omega)]
    rfl

/-- **A name that is taken gets the first number that makes it free.**  A base that is not taken is
its own name.  Otherwise the name is the base with the least number, from 1 on, with which it is not
taken.  Counting up in 32 bits finds it, as long as fewer names are taken than there are numbers: it
tries no more names than are taken and never comes to the last number.  So a name is never taken,
and names for several bases in turn are distinct and were not taken before; counting finds them all
if there are numbers for them. -/
theorem freeName_is_first (taken : List String) (base : String) :
    (base ∉ taken → freeName taken base = base)
    ∧ (base ∈ taken → ∃ i, 1 ≤ i ∧ i ≤ taken.length ∧ freeName taken base = numbered base i
      ∧ numbered base i ∉ taken ∧ (∀ j, 1 ≤ j → j < i → numbered base j ∈ taken)
      ∧ (taken.length < 2 ^ 31 - 1 → countFrom taken base 1
        = ⟨(List.range' 1 i).map (numbered base), some (numbered base i)⟩))
    ∧ (taken.length < 2 ^ 31 - 1 → countedName taken base = some (freeName taken base))
    ∧ freeName taken base ∉ taken
    ∧ ∀ bases : List String, (freeNames taken bases).Nodup
      ∧ (∀ name ∈ freeNames taken bases, name ∉ taken)
      ∧ (taken.length + bases.length < 2 ^ 31 →
        countedNames taken bases = some (freeNames taken bases)) := by
  refine ⟨fun hbase => if_neg hbase, ?_, fun h => countedName_eq_freeName h base,
    freeName_not_mem taken base, fun bases => ⟨nodup_freeNames taken bases,
      fun name => not_mem_of_mem_freeNames, countedNames_eq_freeNames⟩⟩
  intro hbase
  obtain ⟨n, hn, hname, hfree, htaken⟩ := exists_first_number hbase
  exact ⟨n + 1, Nat.le_add_left 1 n, hn, hname, hfree, htaken,
    fun h => countFrom_one (by omega) hfree htaken⟩

/-- A keyword and its first two numbers. -/
def takenRates : List String := ["FOPR", "FOPR_1", "FOPR_2"]

/-- One of the bases looks like a name with a number, and one comes twice. -/
theorem freeName_takenRates :
    takenRates.length < 2 ^ 31 - 1 ∧ "FOPR" ∈ takenRates
      ∧ (∃ i, 1 ≤ i ∧ i ≤ 3 ∧ freeName takenRates "FOPR" = numbered "FOPR" i
        ∧ countFrom takenRates "FOPR" 1
          = ⟨(List.range' 1 i).map (numbered "FOPR"), some (numbered "FOPR" i)⟩)
      ∧ freeNames takenRates ["FOPR", "FOPR_1", "FOPR"] = ["FOPR_3", "FOPR_1_1", "FOPR_4"]
      ∧ countedNames takenRates ["FOPR", "FOPR_1", "FOPR"]
        = some ["FOPR_3", "FOPR_1_1", "FOPR_4"] := by
  have hlength : takenRates.length < 2 ^ 31 - 1 := by decide
  have hmem : "FOPR" ∈ takenRates := List.mem_cons_self
  have hnames : freeNames takenRates ["FOPR", "FOPR_1", "FOPR"]
      = ["FOPR_3", "FOPR_1_1", "FOPR_4"] := by decide +kernel
  obtain ⟨-, hnumber, -, -, hbases⟩ := freeName_is_first takenRates "FOPR"
  obtain ⟨i, hpos, hle, hname, -, -, hcount⟩ := hnumber hmem
  have hcounted := (hbases ["FOPR", "FOPR_1", "FOPR"]).2.2 (by decide)
  exact ⟨hlength, hmem, ⟨i, hpos, hle, hname, hcount hlength⟩, hnames, hnames ▸ hcounted⟩

end ReservoirPlot
