/-
ReservoirPlot/Proofs/Series/Layout.lean

What a conversion sees of the layout of a file.  Of two plots with the same header
and the same catalog, only the samples of the instance count, and of these only
the order within each timestep: the order of time does the rest
(`selected_eq`).

`Relayout` is one change of the layout that a conversion does not see, and
`filter_eq_of_relayout` the step; any number of changes, forwards and backwards,
follows by induction on how one file comes from the other.

Main result: `seriesWith_eq_of_layout`.
-/
import Mathlib.Logic.Relation
import ReservoirPlot.Proofs.Series.Conversion

namespace ReservoirPlot

/-! ### Changes of the layout -/

/-- A change of the layout of a file, as far as an instance of a class is concerned: samples pass
others of different timesteps, or samples of other classes and instances come in. -/
inductive Relayout (className instanceName : String) : List Sample → List Sample → Prop
  | move (front xs ys back : List Sample) :
      (∀ a ∈ xs, ∀ b ∈ ys, a.timestep ≠ b.timestep) →
      Relayout className instanceName (front ++ xs ++ ys ++ back) (front ++ ys ++ xs ++ back)
  | add (front others back : List Sample) :
      (∀ s ∈ others, ¬ s.fits (some className) (some instanceName) none) →
      Relayout className instanceName (front ++ back) (front ++ others ++ back)

/-- The samples of an instance at a timestep, in the order of the file. -/
def samplesAt (className instanceName : String) (t : Int32) (samples : List Sample) :
    List Sample :=
  (samples.filter (·.fits (some className) (some instanceName) none)).filter (·.timestep = t)

variable {className instanceName : String}

theorem samplesAt_append (t : Int32) (xs ys : List Sample) :
    samplesAt className instanceName t (xs ++ ys)
      = samplesAt className instanceName t xs ++ samplesAt className instanceName t ys := by
  rw [samplesAt, List.filter_append, List.filter_append]
  rfl

theorem samplesAt_eq_nil {t : Int32} {xs : List Sample} (h : ∀ s ∈ xs, s.timestep ≠ t) :
    samplesAt className instanceName t xs = [] := by
  rw [samplesAt, List.filter_eq_nil_iff]
  intro s hs ht
  exact h s (List.mem_filter.mp hs).1 (of_decide_eq_true ht)

/-- One change leaves the samples of each timestep as they are. -/
theorem Relayout.samplesAt_eq {xs ys : List Sample} (h : Relayout className instanceName xs ys)
    (t : Int32) :
    samplesAt className instanceName t xs = samplesAt className instanceName t ys := by
  cases h with
  | move front xs ys back h =>
    simp only [samplesAt_append]
    -- One of the two has no samples of the timestep.
    by_cases hxs : ∀ a ∈ xs, a.timestep ≠ t
    · rw [samplesAt_eq_nil hxs, List.append_nil, List.append_nil]
    · obtain ⟨a, ha, rfl⟩ : ∃ a ∈ xs, a.timestep = t := by simpa using hxs
      rw [samplesAt_eq_nil fun b hb => Ne.symm (h a ha b hb), List.append_nil, List.append_nil]
  | add front others back h =>
    have hothers : samplesAt className instanceName t others = [] := by
      rw [samplesAt, List.filter_eq_nil_iff.mpr h, List.filter_nil]
    simp only [samplesAt_append]
    rw [hothers, List.append_nil]

/-- Any number of changes leaves the samples of each timestep as they are. -/
theorem samplesAt_eq_of_eqvGen {xs ys : List Sample}
    (h : Relation.EqvGen (Relayout className instanceName) xs ys) (t : Int32) :
    samplesAt className instanceName t xs = samplesAt className instanceName t ys := by
  induction h with
  | rel xs ys hstep => exact hstep.samplesAt_eq t
  | refl xs => rfl
  | symm xs ys _ ih => exact ih.symm
  | trans xs ys zs _ _ ihxy ihyz => exact ihxy.trans ihyz

/-! ### The conversion -/

variable {p q : Plot}

/-- The selected samples are known from those of each timestep. -/
theorem Plot.selected_eq
    (h : ∀ t, samplesAt className instanceName t p.samples
      = samplesAt className instanceName t q.samples) :
    p.selected className instanceName = q.selected className instanceName := by
  have hp := p.inTimeOrder_selected className instanceName
  have hq := q.inTimeOrder_selected className instanceName
  apply eq_of_filter_timestep_eq hp.ascending hq.ascending
  intro t
  rw [hp.stable t, hq.stable t]
  exact h t

/-- **A conversion does not depend on the layout of the file.**  Two plots with the same header
and the same catalog are converted alike, be it to the same series or to the same conflict, if at
every timestep they have the same samples of the instance in the same order; so it is however often
samples of different timesteps pass each other and samples of other instances come or go. -/
theorem seriesWith_eq_of_layout (hheader : p.header = q.header) (hcatalog : p.catalog = q.catalog)
    (className instanceName : String) (table : KeywordTable) :
    ((∀ t, (p.samplesWhere (some className) (some instanceName) none).filter (·.timestep = t)
        = (q.samplesWhere (some className) (some instanceName) none).filter (·.timestep = t)) →
      p.seriesWith className instanceName table = q.seriesWith className instanceName table)
    ∧ (Relation.EqvGen (Relayout className instanceName) p.samples q.samples →
      p.seriesWith className instanceName table = q.seriesWith className instanceName table) := by
  have hsame : (∀ t, samplesAt className instanceName t p.samples
        = samplesAt className instanceName t q.samples) →
      p.seriesWith className instanceName table = q.seriesWith className instanceName table := by
    intro h
    rw [Plot.seriesWith, Plot.seriesWith, Plot.selected_eq h, Plot.codes, Plot.codes, hheader,
      hcatalog]
  exact ⟨hsame, fun h => hsame (samplesAt_eq_of_eqvGen h)⟩

/-- The plot `outOfOrder` without the other well, and with its timesteps in order. -/
def inOrder : Plot :=
  { outOfOrder with
    samples := [wellSample (-2) "P1" "QOP" 2, wellSample 5 "P1" "QOP" 3,
      wellSample 5 "P1" "WCUT" 1, wellSample 5 "P1" "QOP" 7] }

theorem relayout_inOrder :
    Relation.EqvGen (Relayout "WELL" "P1") inOrder.samples outOfOrder.samples := by
  have hmove : Relayout "WELL" "P1" inOrder.samples [wellSample 5 "P1" "QOP" 3,
      wellSample (-2) "P1" "QOP" 2, wellSample 5 "P1" "WCUT" 1, wellSample 5 "P1" "QOP" 7] :=
    .move [] [wellSample (-2) "P1" "QOP" 2] [wellSample 5 "P1" "QOP" 3]
      [wellSample 5 "P1" "WCUT" 1, wellSample 5 "P1" "QOP" 7] (by decide +kernel)
  have hadd : Relayout "WELL" "P1" [wellSample 5 "P1" "QOP" 3, wellSample (-2) "P1" "QOP" 2,
      wellSample 5 "P1" "WCUT" 1, wellSample 5 "P1" "QOP" 7] outOfOrder.samples :=
    .add [wellSample 5 "P1" "QOP" 3] [wellSample 5 "P2" "QOP" 9] [wellSample (-2) "P1" "QOP" 2,
      wellSample 5 "P1" "WCUT" 1, wellSample 5 "P1" "QOP" 7] (by decide +kernel)
  exact .trans _ _ _ (.rel _ _ hmove) (.rel _ _ hadd)

theorem seriesWith_inOrder :
    inOrder.header = outOfOrder.header ∧ inOrder.catalog = outOfOrder.catalog
      ∧ Relation.EqvGen (Relayout "WELL" "P1") inOrder.samples outOfOrder.samples
      ∧ (∀ t, (inOrder.samplesWhere (some "WELL") (some "P1") none).filter (·.timestep = t)
        = (outOfOrder.samplesWhere (some "WELL") (some "P1") none).filter (·.timestep = t))
      ∧ inOrder.seriesWith "WELL" "P1" .field = outOfOrder.seriesWith "WELL" "P1" .field
      ∧ inOrder.seriesWith "WELL" "P1" .empty = outOfOrder.seriesWith "WELL" "P1" .empty := by
  have hfilter := samplesAt_eq_of_eqvGen relayout_inOrder
  have hlayout := seriesWith_eq_of_layout (p := inOrder) (q := outOfOrder) rfl rfl "WELL" "P1"
  exact ⟨rfl, rfl, relayout_inOrder, hfilter, (hlayout .field).2 relayout_inOrder,
    (hlayout .empty).1 hfilter⟩

end ReservoirPlot
