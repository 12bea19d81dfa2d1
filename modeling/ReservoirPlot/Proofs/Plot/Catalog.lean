/-
ReservoirPlot/Proofs/Plot/Catalog.lean

What a catalog says after any sequence of insertions.  A class stands where it
was first inserted and has the codes of its last insertion:

    (ofEntries es).classes       = the names in `es`, each at its first place
    (ofEntries es).codes? name   = the codes of the last entry of the name

Both go by induction from the right, as the last insertion is the one that acts
on the catalog made before.  `FirstPlaces` says what it is to list each thing once,
at its first place, and `records_ofEntries` reads all views of a catalog off the two.
-/
import Mathlib.Data.Finset.Card
import Mathlib.Data.List.Induction
import ReservoirPlot.Plot.Catalog

namespace ReservoirPlot

/-! ### First places -/

section

variable {α : Type} [DecidableEq α]

/-- `once` has everything that occurs in `all`, in the order of the places where it first occurs. -/
structure FirstPlaces (all once : List α) : Prop where
  mem_iff : ∀ x, x ∈ once ↔ x ∈ all
  ascending : once.Pairwise fun x y => all.idxOf x < all.idxOf y

/-- Nothing is listed twice. -/
theorem FirstPlaces.nodup {all once : List α} (h : FirstPlaces all once) : once.Nodup :=
  h.ascending.imp fun hlt heq => Nat.ne_of_lt hlt (congrArg all.idxOf heq)

/-- One more thing at the end is added unless it has occurred. -/
theorem eraseDups_concat (xs : List α) (x : α) :
    (xs ++ [x]).eraseDups = if x ∈ xs then xs.eraseDups else xs.eraseDups ++ [x] := by
  rw [List.eraseDups_append]
  by_cases h : x ∈ xs
  · have hnone : [x].removeAll xs = [] := by
      rw [List.removeAll, List.filter_eq_nil_iff]
      simpa using h
    rw [if_pos h, hnone, List.eraseDups_nil, List.append_nil]
  · have hall : [x].removeAll xs = [x] := by
      rw [List.removeAll, List.filter_eq_self]
      simpa using h
    rw [if_neg h, hall]
    rfl

theorem firstPlaces_eraseDups (xs : List α) : FirstPlaces xs xs.eraseDups where
  mem_iff := fun _ => List.mem_eraseDups
  ascending := by
    induction xs using List.reverseRecOn with
    | nil => exact List.Pairwise.nil
    | append_singleton xs x ih =>
      -- What is added behind them does not move the first places of the others.
      have hkeep : xs.eraseDups.Pairwise
          fun y z => (xs ++ [x]).idxOf y < (xs ++ [x]).idxOf z := by
        refine ih.imp_of_mem fun hy hz hlt => ?_
        rwa [List.idxOf_append_of_mem (List.mem_eraseDups.mp hy),
          List.idxOf_append_of_mem (List.mem_eraseDups.mp hz)]
      rw [eraseDups_concat]
      split
      · exact hkeep
      · next hnew =>
        refine List.pairwise_append.mpr ⟨hkeep, List.pairwise_singleton .., ?_⟩
        intro y hy z hz
        obtain rfl := List.mem_singleton.mp hz
        have hmem := List.mem_eraseDups.mp hy
        rw [List.idxOf_append_of_mem hmem, List.idxOf_append_of_notMem hnew]
        exact Nat.lt_add_right _ (List.idxOf_lt_length_of_mem hmem)

end

namespace Catalog

/-! ### Sequences of insertions -/

/-- The codes of the last entry of a name. -/
def lastCodes? (es : List Entry) (name : ClassName) : Option (List VariableCode) :=
  ((es.filter fun e => e.1 = name).getLast?).map Prod.snd

theorem ofEntries_concat (es : List Entry) (e : Entry) :
    ofEntries (es ++ [e]) = (ofEntries es).insert e.1 e.2 := by
  rw [ofEntries, List.foldl_append]
  rfl

/-- Names keep their first place. -/
theorem classes_ofEntries (es : List Entry) :
    (ofEntries es).classes = (es.map Prod.fst).eraseDups := by
  induction es using List.reverseRecOn with
  | nil => rfl
  | append_singleton es e ih =>
    rw [ofEntries_concat, classes_insert, ih, List.map_append, List.map_singleton,
      eraseDups_concat]
    simp only [List.mem_eraseDups]

/-- The last codes of a name are the ones that count. -/
theorem codes?_ofEntries (es : List Entry) (name : ClassName) :
    (ofEntries es).codes? name = lastCodes? es name := by
  induction es using List.reverseRecOn with
  | nil => rfl
  | append_singleton es e ih =>
    rw [ofEntries_concat, lastCodes?, List.filter_append]
    by_cases h : e.1 = name
    · have hlast : [e].filter (fun e => e.1 = name) = [e] := by
        rw [List.filter_cons_of_pos (by simpa using h), List.filter_nil]
      rw [h, codes?_insert_self, hlast, List.getLast?_concat]
      rfl
    · have hnone : [e].filter (fun e => e.1 = name) = [] := by
        rw [List.filter_cons_of_neg (by simpa using h), List.filter_nil]
      rw [codes?_insert_of_ne (Ne.symm h), hnone, List.append_nil, ih, lastCodes?]

/-! ### All views -/

/-- An entry is found by its name. -/
theorem codes?_of_mem {c : Catalog} {e : Entry} (h : e ∈ c.entries) :
    c.codes? e.1 = some e.2 := by
  have hsome : (c.entries.find? fun entry => entry.1 = e.1).isSome :=
    List.find?_isSome.mpr ⟨e, h, decide_eq_true rfl⟩
  obtain ⟨found, hfound⟩ := Option.isSome_iff_exists.mp hsome
  have hname : found.1 = e.1 := by simpa using List.find?_some hfound
  have hsame : found = e :=
    List.inj_on_of_nodup_map c.nodup (List.mem_of_find?_eq_some hfound) h hname
  rw [codes?, hfound, hsame, Option.map_some]

/-- The names in order and their codes are all that a catalog says. -/
theorem ext_views {a b : Catalog} (hclasses : a.classes = b.classes)
    (hcodes : ∀ name, a.codes? name = b.codes? name) : a = b := by
  have hentries (c : Catalog) :
      c.entries = c.classes.map fun name => (name, (c.codes? name).getD []) := by
    rw [classes, List.map_map]
    refine (List.map_id c.entries).symm.trans (List.map_congr_left fun e he => ?_)
    show e = (e.1, (c.codes? e.1).getD [])
    rw [codes?_of_mem he, Option.getD_some]
  refine Catalog.ext ?_
  rw [hentries a, hentries b, hclasses]
  simp only [hcodes]

/-- What all views of a catalog say after a sequence of insertions. -/
structure Records (c : Catalog) (es : List Entry) : Prop where
  classes_firstPlaces : FirstPlaces (es.map Prod.fst) c.classes
  codes?_eq : ∀ name, c.codes? name = lastCodes? es name
  codes?_eq_none_iff : ∀ name, c.codes? name = none ↔ name ∉ es.map Prod.fst
  size_eq : c.size = (es.map Prod.fst).toFinset.card
  isEmpty_iff : c.isEmpty ↔ es = []

theorem records_ofEntries (es : List Entry) : (ofEntries es).Records es := by
  have hplaces : FirstPlaces (es.map Prod.fst) (ofEntries es).classes := by
    rw [classes_ofEntries]
    exact firstPlaces_eraseDups _
  refine ⟨hplaces, codes?_ofEntries es, fun name => ?_, ?_, ?_⟩
  · rw [← hplaces.mem_iff, ← codes?_isSome_iff, Bool.not_eq_true, Option.isSome_eq_false_iff,
      Option.isNone_iff_eq_none]
  · have hset : (ofEntries es).classes.toFinset = (es.map Prod.fst).toFinset :=
      List.toFinset.ext hplaces.mem_iff
    rw [← length_classes, ← List.toFinset_card_of_nodup hplaces.nodup, hset]
  · have hnil : (ofEntries es).entries = [] ↔ es = [] := by
      rw [← List.map_eq_nil_iff (f := Prod.fst), ← List.map_eq_nil_iff (f := Prod.fst) (l := es),
        List.eq_nil_iff_forall_not_mem, List.eq_nil_iff_forall_not_mem]
      exact forall_congr' fun name => not_congr (hplaces.mem_iff name)
    rw [isEmpty, List.isEmpty_iff, hnil]

end Catalog

end ReservoirPlot
