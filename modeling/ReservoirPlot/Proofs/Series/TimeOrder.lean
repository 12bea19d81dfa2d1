/-
ReservoirPlot/Proofs/Series/TimeOrder.lean

Samples in the order of their timesteps, and the time axis that they give.

`InTimeOrder` says what the sort of a conversion does to a list of samples; there
is only one list that it allows (`InTimeOrder.eq`).  For the sort it rests on the
stability of merge sort: elements that are all within each other's order keep
their places among themselves (`filter_mergeSort`).

`Marks` says what a time axis is to some timesteps: it has each of them once, in
ascending order.  `marks_axisAfter` is the step of the axis, by induction on the
samples still to come; on such an axis timesteps and places correspond
(`Marks.axisIndex_eq_iff`).
-/
import ReservoirPlot.Series.Conversion

namespace ReservoirPlot

/-! ### Sorting -/

/-- Samples put in the order of their timesteps: none is lost or added, and those of one
timestep keep their order. -/
structure InTimeOrder (samples original : List Sample) : Prop where
  perm : samples.Perm original
  ascending : samples.Pairwise fun a b => a.timestep ≤ b.timestep
  stable : ∀ t, samples.filter (·.timestep = t) = original.filter (·.timestep = t)

/-- Samples with the same ones at each timestep are the same samples. -/
theorem mem_iff_of_filter_timestep_eq {xs ys : List Sample}
    (h : ∀ t, xs.filter (·.timestep = t) = ys.filter (·.timestep = t)) (s : Sample) :
    s ∈ xs ↔ s ∈ ys := by
  have hs : s ∈ xs.filter (·.timestep = s.timestep)
      ↔ s ∈ ys.filter (·.timestep = s.timestep) := by
    rw [h]
  simpa using hs

/-- Samples in ascending order are known from those of each timestep. -/
theorem eq_of_filter_timestep_eq {xs ys : List Sample}
    (hxs : xs.Pairwise fun a b => a.timestep ≤ b.timestep)
    (hys : ys.Pairwise fun a b => a.timestep ≤ b.timestep)
    (h : ∀ t, xs.filter (·.timestep = t) = ys.filter (·.timestep = t)) : xs = ys := by
  have hmem := mem_iff_of_filter_timestep_eq h
  induction xs generalizing ys with
  | nil =>
    refine (List.eq_nil_iff_forall_not_mem.mpr ?_).symm
    intro s hs
    exact List.not_mem_nil ((hmem s).mpr hs)
  | cons x xs ih =>
    rcases ys with - | ⟨y, ys⟩
    · exact absurd ((hmem x).mp List.mem_cons_self) List.not_mem_nil
    · rw [List.pairwise_cons] at hxs hys
      -- Both heads have the least timestep.
      have hxy : x.timestep ≤ y.timestep := by
        rcases List.mem_cons.mp ((hmem y).mpr List.mem_cons_self) with rfl | hy
        · exact Int32.le_rfl
        · exact hxs.1 y hy
      have hyx : y.timestep ≤ x.timestep := by
        rcases List.mem_cons.mp ((hmem x).mp List.mem_cons_self) with rfl | hx
        · exact Int32.le_rfl
        · exact hys.1 x hx
      have ht : y.timestep = x.timestep := Int32.le_antisymm hyx hxy
      have hhead := h x.timestep
      rw [List.filter_cons_of_pos (by simp), List.filter_cons_of_pos (by simpa using ht)] at hhead
      obtain ⟨rfl, htail⟩ := List.cons.inj hhead
      have hrest : ∀ t, xs.filter (·.timestep = t) = ys.filter (·.timestep = t) := by
        intro t
        by_cases hxt : x.timestep = t
        · exact hxt ▸ htail
        · have hcons := h t
          rwa [List.filter_cons_of_neg (by simpa using hxt),
            List.filter_cons_of_neg (by simpa using hxt)] at hcons
      rw [ih hxs.2 hys.2 hrest (mem_iff_of_filter_timestep_eq hrest)]

namespace InTimeOrder

variable {xs ys original : List Sample}

/-- There is one way to put samples in the order of their timesteps. -/
theorem eq (hxs : InTimeOrder xs original) (hys : InTimeOrder ys original) : xs = ys :=
  eq_of_filter_timestep_eq hxs.ascending hys.ascending fun t =>
    (hxs.stable t).trans (hys.stable t).symm

/-- A choice among the samples leaves them in order. -/
theorem filter (h : InTimeOrder xs original) (q : Sample → Bool) :
    InTimeOrder (xs.filter q) (original.filter q) where
  perm := h.perm.filter q
  ascending := h.ascending.filter q
  stable t := by
    have hcomm : ∀ zs : List Sample, (zs.filter q).filter (·.timestep = t)
        = (zs.filter (·.timestep = t)).filter q := by
      intro zs
      rw [List.filter_filter, List.filter_filter]
      exact List.filter_congr fun s _ => Bool.and_comm _ _
    rw [hcomm, hcomm, h.stable t]

end InTimeOrder

/-- Elements in each other's order stay as they are among themselves. -/
theorem filter_mergeSort {α : Type} {le : α → α → Bool}
    (trans : ∀ a b c, le a b → le b c → le a c) (total : ∀ a b, le a b || le b a)
    {q : α → Bool} (hq : ∀ a b, q a → q b → le a b) (xs : List α) :
    (xs.mergeSort le).filter q = xs.filter q := by
  have hpairs : (xs.filter q).Pairwise fun a b => le a b :=
    List.pairwise_of_forall_mem_list fun a ha b hb =>
      hq a b (List.mem_filter.mp ha).2 (List.mem_filter.mp hb).2
  have hsub : (xs.filter q).Sublist (xs.mergeSort le) :=
    List.sublist_mergeSort trans total hpairs List.filter_sublist
  -- Both sides have the same length, so a sublist is the whole.
  have hsub' := hsub.filter q
  rw [List.filter_eq_self.mpr fun a ha => (List.mem_filter.mp ha).2] at hsub'
  exact (hsub'.eq_of_length ((List.mergeSort_perm xs le).filter q).length_eq.symm).symm

/-- The selected samples are those of the instance in the order of their timesteps. -/
theorem Plot.inTimeOrder_selected (p : Plot) (className instanceName : String) :
    InTimeOrder (p.selected className instanceName)
      (p.samplesWhere (some className) (some instanceName) none) := by
  have trans : ∀ a b c : Sample, decide (a.timestep ≤ b.timestep) →
      decide (b.timestep ≤ c.timestep) → decide (a.timestep ≤ c.timestep) := by
    intro a b c hab hbc
    exact decide_eq_true (Int32.le_trans (of_decide_eq_true hab) (of_decide_eq_true hbc))
  have total : ∀ a b : Sample,
      decide (a.timestep ≤ b.timestep) || decide (b.timestep ≤ a.timestep) := by
    intro a b
    simpa using Int32.le_total a.timestep b.timestep
  refine ⟨p.selected_perm className instanceName, ?_, ?_⟩
  · have hsorted := List.pairwise_mergeSort trans total
      (p.samplesWhere (some className) (some instanceName) none)
    exact hsorted.imp fun hab => of_decide_eq_true hab
  · intro t
    apply filter_mergeSort trans total
    intro a b ha hb
    rw [of_decide_eq_true ha, of_decide_eq_true hb]
    exact decide_eq_true Int32.le_rfl

/-- Samples that are in the order of time as they are need not be moved. -/
theorem Plot.selected_of_ascending {p : Plot} {className instanceName : String}
    (h : (p.samplesWhere (some className) (some instanceName) none).Pairwise
      fun a b => a.timestep ≤ b.timestep) :
    p.selected className instanceName
      = p.samplesWhere (some className) (some instanceName) none :=
  (p.inTimeOrder_selected className instanceName).eq ⟨List.Perm.refl _, h, fun _ => rfl⟩

/-! ### Time axis -/

/-- An axis that has each of some timesteps once, in ascending order. -/
structure Marks (axis : List TimePoint) (timesteps : List Int32) : Prop where
  ascending : axis.Pairwise fun a b => a.timestep < b.timestep
  mem_iff : ∀ t, t ∈ axis.map (·.timestep) ↔ t ∈ timesteps

namespace Marks

variable {axis : List TimePoint} {timesteps : List Int32}

/-- An axis begins with any point before all others. -/
theorem cons (h : Marks axis timesteps) {first : TimePoint}
    (hfirst : ∀ t ∈ timesteps, first.timestep < t) :
    Marks (first :: axis) (first.timestep :: timesteps) where
  ascending := by
    refine List.pairwise_cons.mpr ⟨?_, h.ascending⟩
    intro point hpoint
    exact hfirst _ ((h.mem_iff _).mp (List.mem_map_of_mem hpoint))
  mem_iff t := by
    rw [List.map_cons, List.mem_cons, List.mem_cons, h.mem_iff]

/-- Only which timesteps there are matters. -/
theorem congr (h : Marks axis timesteps) {others : List Int32}
    (hothers : ∀ t, t ∈ timesteps ↔ t ∈ others) : Marks axis others :=
  ⟨h.ascending, fun t => (h.mem_iff t).trans (hothers t)⟩

end Marks

/-- Two steps in sequence succeed exactly when each of them does. -/
theorem bind_eq_ok_iff {ε α β : Type} {r : Except ε α} {f : α → Except ε β} {b : β} :
    (r >>= f) = .ok b ↔ ∃ a, r = .ok a ∧ f a = .ok b := by
  rcases r with e | a
  · constructor
    · intro h
      cases h
    · rintro ⟨a, h, -⟩
      cases h
  · constructor
    · intro h
      exact ⟨a, rfl, h⟩
    · rintro ⟨a', h, hf⟩
      obtain rfl := Except.ok.inj h
      exact hf

/-- The rest of an axis, together with its last point, marks the samples to come. -/
theorem marks_axisAfter {last : TimePoint} {samples : List Sample} {points : List TimePoint}
    (hsorted : (last.timestep :: samples.map (·.timestep)).Pairwise (· ≤ ·))
    (h : axisAfter last samples = .ok points) :
    Marks (last :: points) (last.timestep :: samples.map (·.timestep)) := by
  induction samples generalizing last points with
  | nil =>
    obtain rfl : [] = points := Except.ok.inj h
    refine ⟨List.pairwise_singleton _ _, ?_⟩
    intro t
    rfl
  | cons s rest ih =>
    rw [List.map_cons, List.pairwise_cons] at hsorted
    obtain ⟨hlast, hrest⟩ := hsorted
    rw [axisAfter] at h
    split at h
    · next heq =>
      -- A sample of the last timestep adds nothing to the axis.
      split at h
      · rw [List.map_cons, heq]
        rw [heq] at hrest
        apply (ih hrest h).congr
        intro t
        simp
      · cases h
    · next hne =>
      -- Any other has a larger timestep, and so have all samples behind it.
      obtain ⟨later, hlater, h⟩ := bind_eq_ok_iff.mp h
      obtain rfl := Except.ok.inj h
      have hlt : last.timestep < s.timestep :=
        Int32.lt_of_le_of_ne (hlast _ List.mem_cons_self) (Ne.symm hne)
      apply (ih hrest hlater).cons
      intro t ht
      rcases List.mem_cons.mp ht with rfl | ht
      · exact hlt
      · exact Int32.lt_of_lt_of_le hlt ((List.pairwise_cons.mp hrest).1 t ht)

/-- The axis of samples in the order of their timesteps marks these timesteps. -/
theorem marks_timeAxis {samples : List Sample} {axis : List TimePoint}
    (hsorted : samples.Pairwise fun a b => a.timestep ≤ b.timestep)
    (h : timeAxis samples = .ok axis) : Marks axis (samples.map (·.timestep)) := by
  rcases samples with - | ⟨s, rest⟩
  · obtain rfl : [] = axis := Except.ok.inj h
    refine ⟨List.Pairwise.nil, ?_⟩
    intro t
    rfl
  · rw [timeAxis] at h
    obtain ⟨later, hlater, h⟩ := bind_eq_ok_iff.mp h
    obtain rfl := Except.ok.inj h
    refine marks_axisAfter ?_ hlater
    exact List.pairwise_map.mpr hsorted

/-- On an ascending axis, the index of a point's timestep is the place of the point. -/
theorem getElem?_axisIndex {axis : List TimePoint}
    (h : axis.Pairwise fun a b => a.timestep < b.timestep) {point : TimePoint}
    (hpoint : point ∈ axis) : axis[axisIndex axis point.timestep]? = some point := by
  induction axis with
  | nil => exact absurd hpoint List.not_mem_nil
  | cons first rest ih =>
    obtain ⟨hfirst, hrest⟩ := List.pairwise_cons.mp h
    rcases List.mem_cons.mp hpoint with rfl | hmem
    · rw [axisIndex, List.takeWhile_cons_of_neg (by simp)]
      rfl
    · rw [axisIndex, List.takeWhile_cons_of_pos (by simpa using hfirst point hmem)]
      exact ih hrest hmem

namespace Marks

variable {axis : List TimePoint} {timesteps : List Int32} {t : Int32}

/-- A timestep that is marked is found on the axis. -/
theorem exists_getElem? (h : Marks axis timesteps) (ht : t ∈ timesteps) :
    ∃ point, axis[axisIndex axis t]? = some point ∧ point.timestep = t := by
  obtain ⟨point, hpoint, rfl⟩ := List.mem_map.mp ((h.mem_iff t).mpr ht)
  exact ⟨point, getElem?_axisIndex h.ascending hpoint, rfl⟩

/-- The index of a timestep is the place of the axis point that has it, and no other place. -/
theorem axisIndex_eq_iff (h : Marks axis timesteps) (ht : t ∈ timesteps) {i : Nat}
    {point : TimePoint} (hpoint : axis[i]? = some point) :
    axisIndex axis t = i ↔ t = point.timestep := by
  constructor
  · rintro rfl
    obtain ⟨found, hfound, rfl⟩ := h.exists_getElem? ht
    rw [hfound] at hpoint
    rw [Option.some.inj hpoint]
  · rintro rfl
    have hnodup : axis.Nodup := by
      apply h.ascending.imp
      rintro a _ hlt rfl
      exact Int32.lt_irrefl hlt
    have hplace := getElem?_axisIndex h.ascending (List.mem_of_getElem? hpoint)
    obtain ⟨hlt, -⟩ := List.getElem?_eq_some_iff.mp hplace
    exact (List.getElem?_inj hlt hnodup).mp (hplace.trans hpoint.symm)

end Marks

end ReservoirPlot
