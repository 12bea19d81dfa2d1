/-
ReservoirPlot/Proofs/Plot/Queries.lean

How the queries of a plot find a class by its name.  There are two ways:

* `Plot.instances` and `Plot.samplesWhere` ask of each sample whether its class fits
  the name, and a name longer than eight bytes fits none;
* `Plot.codes` makes a token from the name and looks it up in the catalog.  The token
  of a longer name is its first eight bytes.

In a plot that has been read, the class of every sample is in the catalog, so the two
agree on a name that some class fits and on one that is short enough.  A longer name has
the codes of a class that begins it, if there is one, but never a sample
(`codes_of_longName`).

Main result: `queries_of_className`.
-/
import ReservoirPlot.Proofs.Plot.Catalog
import ReservoirPlot.Proofs.Plot.Endings
import ReservoirPlot.Proofs.Plot.Items
import ReservoirPlot.Proofs.Token

namespace ReservoirPlot

/-! ### Names and tokens -/

namespace Token

variable {width : Nat} {t other : Token width} {name : String}

/-- If a token fits a name, no other does. -/
theorem fits_iff_eq (h : t.fits name) : other.fits name ↔ other = t :=
  ⟨fun hother => eq_of_fits hother h, fun heq => heq ▸ h⟩

/-- A token that begins a name is the one made from it. -/
theorem eq_padded_of_take (h : t.bytes = (Utf8.encode name).take width) :
    t = padded width name := by
  have hlength : width ≤ (Utf8.encode name).length := by
    have hwidth := congrArg List.length h
    rw [t.length_eq, List.length_take] at hwidth
    omega
  exact ext (h.trans (bytes_padded_of_le hlength).symm)

end Token

namespace Plot

variable {p : Plot} {c : ClassName} {name : String}

/-! ### Samples of a name -/

theorem samplesWhere_className (p : Plot) (name : String) :
    p.samplesWhere (some name) none none = p.samples.filter (·.className.fits name) := by
  simp only [samplesWhere, Sample.fits, Option.all_some, Option.all_none, Bool.and_true]

/-- If a class fits a name, the samples of the name are those of the class. -/
theorem samplesWhere_of_fits (h : c.fits name) :
    p.samplesWhere (some name) none none = p.samples.filter (·.className = c) := by
  rw [samplesWhere_className]
  apply List.filter_congr
  intro x _
  rw [Bool.eq_iff_iff, decide_eq_true_eq]
  exact Token.fits_iff_eq h

/-- The instances of a name are listed as they first occur among its samples. -/
theorem firstPlaces_instances (p : Plot) (name : String) :
    FirstPlaces ((p.samplesWhere (some name) none none).map (·.instanceName))
      (p.instances name) := by
  rw [samplesWhere_className]
  exact firstPlaces_eraseDups _

/-! ### Codes of a name -/

/-- A class of which the token is made from the name has the codes of the name. -/
theorem codes?_eq_codes (h : c ∈ p.classes) (hc : c = Token.padded 8 name) :
    p.catalog.codes? c = some (p.codes name) := by
  obtain ⟨codes, hcodes⟩ :=
    Option.isSome_iff_exists.mp ((Catalog.codes?_isSome_iff p.catalog c).mpr h)
  rw [Plot.codes, ← hc, hcodes]
  rfl

theorem codes_eq_nil (h : Token.padded 8 name ∉ p.classes) : p.codes name = [] := by
  have hnone : p.catalog.codes? (Token.padded 8 name) = none := by
    rw [← Option.not_isSome_iff_eq_none, Catalog.codes?_isSome_iff]
    exact h
  rw [Plot.codes, hnone]
  rfl

end Plot

/-! ### Plots that have been read -/

namespace Plot

variable {p : Plot} {name : String}

/-- The class of a sample of a decoded plot is in the catalog. -/
theorem className_mem_of_decode {bytes : List UInt8} (h : decode (.ofBytes bytes) = .ok p)
    {x : Sample} (hx : x ∈ p.samples) : x.className ∈ p.classes := by
  obtain ⟨codes, hcodes, -⟩ := exists_codes_of_decode h hx
  exact (Catalog.codes?_isSome_iff _ _).mp (Option.isSome_of_eq_some hcodes)

/-- In a decoded plot, the samples of a class have the codes of the class. -/
theorem code_mem_of_decode {bytes : List UInt8} (h : decode (.ofBytes bytes) = .ok p)
    {instanceName? code? : Option String} {x : Sample}
    (hx : x ∈ p.samplesWhere (some name) instanceName? code?) : x.code ∈ p.codes name := by
  obtain ⟨hmem, hfits⟩ := mem_samplesWhere.mp hx
  simp only [Sample.fits, Option.all_some, Bool.and_eq_true] at hfits
  -- The catalog knows the class of the sample, which is the name asked for, with blanks behind it.
  obtain ⟨codes, hcodes, hcode⟩ := exists_codes_of_decode h hmem
  rw [Plot.codes, ← Token.eq_padded_of_fits hfits.1.1, hcodes]
  exact hcode

/-- A name that no class fits has no samples. -/
theorem samplesWhere_eq_nil {bytes : List UInt8} (h : decode (.ofBytes bytes) = .ok p)
    (hname : ∀ c ∈ p.classes, ¬ c.fits name) : p.samplesWhere (some name) none none = [] := by
  rw [samplesWhere_className, List.filter_eq_nil_iff]
  -- The class of a sample is in the catalog, so it is one of those that do not fit.
  exact fun x hx => hname _ (className_mem_of_decode h hx)

end Plot

/-- **How a class is found by its name.**  In a plot that has been read, at most one class fits a
name.  If one does, the codes of the name are those that the catalog has for it, its samples are
those of the class and have these codes, and its instances are those of its samples, each at its
first place.  If none does, there are neither samples nor instances.  Nor are there codes, unless
the name is longer than a class name: then a class that begins it gives it its codes. -/
theorem queries_of_className {s : Stream} {e : Ending} {bytes : List UInt8} {p : Plot}
    (hs : s.Delivers e bytes) (hoffset : s.offset = 0) (h : readPlot.outcome s = .ok p)
    (name : String) :
    (∀ c ∈ p.classes, c.fits name →
      (∀ other ∈ p.classes, other.fits name → other = c)
      ∧ p.catalog.codes? c = some (p.codes name)
      ∧ p.samplesWhere (some name) none none = p.samples.filter (·.className = c)
      ∧ (∀ x ∈ p.samplesWhere (some name) none none, x.code ∈ p.codes name)
      ∧ FirstPlaces ((p.samplesWhere (some name) none none).map (·.instanceName))
          (p.instances name)
      ∧ (p.instances name).Nodup)
    ∧ ((∀ c ∈ p.classes, ¬ c.fits name) →
      p.samplesWhere (some name) none none = []
      ∧ p.instances name = []
      ∧ ((Utf8.encode name).length ≤ 8 → p.codes name = [])
      ∧ (∀ c ∈ p.classes, c.bytes = (Utf8.encode name).take 8 →
        p.catalog.codes? c = some (p.codes name))
      ∧ ((∀ c ∈ p.classes, c.bytes ≠ (Utf8.encode name).take 8) → p.codes name = [])) := by
  have hdecode := decode_of_outcome hs hoffset h
  have hplaces := p.firstPlaces_instances name
  constructor
  · intro c hc hfits
    refine ⟨fun other _ hother => Token.eq_of_fits hother hfits,
      Plot.codes?_eq_codes hc (Token.eq_padded_of_fits hfits), Plot.samplesWhere_of_fits hfits,
      fun x hx => Plot.code_mem_of_decode hdecode hx, hplaces, hplaces.nodup⟩
  · intro hname
    have hsamples := Plot.samplesWhere_eq_nil hdecode hname
    refine ⟨hsamples, ?_, ?_, ?_, ?_⟩
    · rw [hsamples] at hplaces
      exact List.eq_nil_iff_forall_not_mem.mpr fun i hi => nomatch (hplaces.mem_iff i).mp hi
    · intro hshort
      exact Plot.codes_eq_nil fun hmem => hname _ hmem (Token.padded_fits hshort)
    · intro c hc hbegins
      exact Plot.codes?_eq_codes hc (Token.eq_padded_of_take hbegins)
    · -- Either the name is cut, and its token begins it, or its token fits it.
      intro hbegins
      refine Plot.codes_eq_nil fun hmem => ?_
      rcases Nat.lt_or_ge 8 (Utf8.encode name).length with hlong | hshort
      · exact hbegins _ hmem (Token.bytes_padded_of_le hlong.le)
      · exact hname _ hmem (Token.padded_fits hshort)

/-- A file with one class, whose name fills its field. -/
def platformFile : PlotFile where
  headerPart := ratesFile.headerPart
  catalogPart := ⟨.padded 8 "", .padded 8 "", .padded 8 "",
    [⟨.padded 8 "PLATFORM", .padded 4 "TIME", [.padded 4 "QOP"], .padded 8 ""⟩], by decide⟩
  blocks := [⟨.padded 8 "PLATFORM", [.padded 4 "QOP"], .padded 8 "", ⟨0x3F800000⟩, .zero,
    ⟨0x3F800000⟩, ⟨0x3F800000⟩, .zero,
    [⟨.padded 8 "", .padded 8 "NORTH", .padded 64 "", [⟨0x41480000⟩], rfl⟩],
    .padded 8 "", by decide, by decide, by decide⟩]
  length_classes := rfl

theorem queries_of_platformFile :
    (Stream.of (.ofBytes platformFile.bytes)).Delivers .clean platformFile.bytes
      ∧ (Stream.of (.ofBytes platformFile.bytes)).offset = 0
      ∧ readPlot.outcome (.of (.ofBytes platformFile.bytes)) = .ok platformFile.plot
      ∧ Token.padded 8 "PLATFORM" ∈ platformFile.plot.classes
      ∧ (Token.padded 8 "PLATFORM").fits "PLATFORM"
      ∧ platformFile.plot.catalog.codes? (.padded 8 "PLATFORM")
        = some (platformFile.plot.codes "PLATFORM")
      ∧ (∀ x ∈ platformFile.plot.samplesWhere (some "PLATFORM") none none,
        x.code ∈ platformFile.plot.codes "PLATFORM")
      ∧ (∀ c ∈ platformFile.plot.classes, ¬ c.fits "FIELD")
      ∧ platformFile.plot.instances "FIELD" = []
      ∧ (Utf8.encode "FIELD").length ≤ 8 ∧ platformFile.plot.codes "FIELD" = []
      ∧ (∀ c ∈ platformFile.plot.classes, ¬ c.fits "PLATFORMS")
      ∧ (Token.padded 8 "PLATFORM").bytes = (Utf8.encode "PLATFORMS").take 8
      ∧ platformFile.plot.catalog.codes? (.padded 8 "PLATFORM")
        = some (platformFile.plot.codes "PLATFORMS") := by
  have hs := Stream.delivers_of (.ofBytes platformFile.bytes)
  have hdecode := platformFile.decode_bytes
  have hmem : Token.padded 8 "PLATFORM" ∈ platformFile.plot.classes := by decide
  have hfits : (Token.padded 8 "PLATFORM").fits "PLATFORM" := by decide
  have hfield : ∀ c ∈ platformFile.plot.classes, ¬ c.fits "FIELD" := by decide
  have hlong : ∀ c ∈ platformFile.plot.classes, ¬ c.fits "PLATFORMS" := by decide
  have hbegins : (Token.padded 8 "PLATFORM").bytes = (Utf8.encode "PLATFORMS").take 8 := by decide
  obtain ⟨-, hcodes, -, hhave, -⟩ :=
    (queries_of_className hs rfl hdecode "PLATFORM").1 _ hmem hfits
  obtain ⟨-, hinstances, hshort, -⟩ := (queries_of_className hs rfl hdecode "FIELD").2 hfield
  obtain ⟨-, -, -, hbeginning, -⟩ := (queries_of_className hs rfl hdecode "PLATFORMS").2 hlong
  exact ⟨hs, rfl, hdecode, hmem, hfits, hcodes, hhave, hfield, hinstances, by decide,
    hshort (by decide), hlong, hbegins, hbeginning _ hmem hbegins⟩

/-- A name that is too long by one letter fits no class and has neither samples nor instances, but
it has the codes of the class that begins it. -/
theorem codes_of_longName :
    Plot.decode (.ofBytes platformFile.bytes) = .ok platformFile.plot
      ∧ (∀ c ∈ platformFile.plot.classes, ¬ c.fits "PLATFORMS")
      ∧ platformFile.plot.samplesWhere (some "PLATFORMS") none none = []
      ∧ platformFile.plot.instances "PLATFORMS" = []
      ∧ platformFile.plot.codes "PLATFORMS" = [.padded 4 "QOP"] :=
  ⟨platformFile.decode_bytes, by decide, by decide, by decide, by decide⟩

end ReservoirPlot
