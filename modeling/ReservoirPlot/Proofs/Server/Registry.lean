/-
ReservoirPlot/Proofs/Server/Registry.lean

What the two steps of entering do to a registry.  A registry is told from others by
its look-ups, and one extends another if no look-up that succeeds changes
(`Extends`).  For each step there is a lemma for what it looks up afterwards:

    reader?_addReader_self       the reader entered
    reader?_addReader_of_ne      the others
    signal?_addSignals_cases     a signal was there before or is one of those entered
    forall₂_addSignals           each name leads to its keyword

In a registry that `Resolves`, whoever finds a signal finds its reader, and in
its series a vector; both steps keep it so, the second because of the first.
-/
import Mathlib.Data.List.Forall2
import ReservoirPlot.Proofs.Server.Names

namespace ReservoirPlot

/-! ### Looking up -/

/-- An entry under a key that is there once is found. -/
theorem lookup_of_mem {α β : Type} [BEq α] [LawfulBEq α] {entries : List (α × β)} {a : α} {b : β}
    (h : (entries.map (·.1)).Nodup) (hmem : (a, b) ∈ entries) : entries.lookup a = some b := by
  obtain ⟨front, back, rfl⟩ := List.append_of_mem hmem
  refine List.lookup_eq_some_iff.mpr ⟨front, back, rfl, ?_⟩
  intro entry hentry
  rw [List.map_append, List.map_cons] at h
  have hne := (List.nodup_append.mp h).2.2 entry.1 (List.mem_map_of_mem hentry) a
    List.mem_cons_self
  simpa using Ne.symm hne

/-- What is not found is there under no key. -/
theorem lookup_eq_none_iff_not_mem {α β : Type} [BEq α] [LawfulBEq α] {entries : List (α × β)}
    {a : α} : entries.lookup a = none ↔ a ∉ entries.map (·.1) := by
  rw [List.lookup_eq_none_iff]
  constructor
  · intro h hmem
    obtain ⟨entry, hentry, rfl⟩ := List.mem_map.mp hmem
    simpa using h entry hentry
  · intro h entry hentry
    simpa using fun heq : a = entry.1 => h (heq ▸ List.mem_map_of_mem hentry)

namespace Registry

variable {r after : Registry} {id : Uuid} {reader : Reader} {keywords : List String}
variable {name : String} {signal : Signal}

theorem reader?_eq_none_iff : r.reader? id = none ↔ id ∉ r.readers.map (·.1) :=
  lookup_eq_none_iff_not_mem

theorem signal?_eq_none_iff : r.signal? name = none ↔ name ∉ r.names :=
  lookup_eq_none_iff_not_mem

/-! ### Extension -/

/-- Every reader and every signal of a registry is also in another one, as the same. -/
structure Extends (r after : Registry) : Prop where
  reader : ∀ id reader, r.reader? id = some reader → after.reader? id = some reader
  signal : ∀ name signal, r.signal? name = some signal → after.signal? name = some signal

theorem Extends.refl (r : Registry) : r.Extends r :=
  ⟨fun _ _ h => h, fun _ _ h => h⟩

theorem Extends.trans {last : Registry} (h : r.Extends after) (h' : after.Extends last) :
    r.Extends last :=
  ⟨fun id reader hr => h'.reader id reader (h.reader id reader hr),
    fun name signal hs => h'.signal name signal (h.signal name signal hs)⟩

/-- Names lead to the same keywords as before. -/
theorem Extends.forall₂ (h : r.Extends after) {names : List String}
    (hnames : List.Forall₂ (fun name keyword => r.signal? name = some ⟨id, keyword⟩)
      names keywords) :
    List.Forall₂ (fun name keyword => after.signal? name = some ⟨id, keyword⟩) names keywords :=
  hnames.imp fun _ _ hname => h.signal _ _ hname

/-- A name that leads to a keyword is the name of a signal. -/
theorem exists_signal {names : List String}
    (hnames : List.Forall₂ (fun name keyword => r.signal? name = some ⟨id, keyword⟩)
      names keywords) (hname : name ∈ names) : ∃ keyword, r.signal? name = some ⟨id, keyword⟩ := by
  induction hnames with
  | nil => exact absurd hname List.not_mem_nil
  | @cons first keyword names keywords hfirst _ ih =>
    rcases List.mem_cons.mp hname with rfl | hname
    · exact ⟨keyword, hfirst⟩
    · exact ih hname

/-! ### Entering a reader -/

theorem reader?_addReader_self (r : Registry) (id : Uuid) (reader : Reader) :
    (r.addReader id reader).reader? id = some reader := by
  have hnone : (r.readers.filter fun entry => entry.1 ≠ id).lookup id = none := by
    refine lookup_eq_none_iff_not_mem.mpr fun hmem => ?_
    obtain ⟨entry, hentry, rfl⟩ := List.mem_map.mp hmem
    exact of_decide_eq_true (List.mem_filter.mp hentry).2 rfl
  rw [reader?, addReader, List.lookup_append, hnone]
  exact List.lookup_cons_self

theorem reader?_addReader_of_ne {id' : Uuid} (h : id' ≠ id) (r : Registry) (reader : Reader) :
    (r.addReader id reader).reader? id' = r.reader? id' := by
  have hothers : (r.readers.filter fun entry => entry.1 ≠ id).lookup id'
      = r.readers.lookup id' := by
    induction r.readers with
    | nil => rfl
    | cons entry rest ih =>
      by_cases hentry : entry.1 = id
      · -- The entry that is dropped is not the one looked for.
        have hne : id' ≠ entry.1 := hentry ▸ h
        rw [List.filter_cons_of_neg (by simpa using hentry), ih, List.lookup_cons,
          beq_false_of_ne hne]
      · rw [List.filter_cons_of_pos (by simpa using hentry), List.lookup_cons, ih,
          List.lookup_cons]
  rw [reader?, addReader, List.lookup_append, hothers, List.lookup_cons, beq_false_of_ne h]
  exact Option.or_none

theorem extends_addReader (h : r.reader? id = none) (reader : Reader) :
    r.Extends (r.addReader id reader) := by
  refine ⟨?_, fun name signal hs => hs⟩
  intro id' found hfound
  rw [reader?_addReader_of_ne, hfound]
  rintro rfl
  rw [h] at hfound
  cases hfound

/-- Under a new identifier a reader is entered behind the others. -/
theorem addReader_of_new (h : r.reader? id = none) (reader : Reader) :
    r.addReader id reader = ⟨r.readers ++ [(id, reader)], r.signals⟩ := by
  rw [addReader, List.filter_eq_self.mpr]
  intro entry hentry
  refine decide_eq_true ?_
  rintro rfl
  exact reader?_eq_none_iff.mp h (List.mem_map_of_mem hentry)

/-! ### Entering signals -/

/-- Signals do not touch the readers. -/
@[simp] theorem reader?_addSignals (r : Registry) (id : Uuid) (keywords : List String)
    (id' : Uuid) : (r.addSignals id keywords).1.reader? id' = r.reader? id' := rfl

theorem signal?_addSignals (r : Registry) (id : Uuid) (keywords : List String) (name : String) :
    (r.addSignals id keywords).1.signal? name = (r.signal? name).or
      ((List.zipWith (fun name keyword => (name, Signal.mk id keyword))
        (r.addSignals id keywords).2 keywords).lookup name) :=
  List.lookup_append

theorem extends_addSignals (r : Registry) (id : Uuid) (keywords : List String) :
    r.Extends (r.addSignals id keywords).1 := by
  refine ⟨?_, ?_⟩
  · intro id' found h
    rwa [reader?_addSignals]
  · intro name signal h
    rw [signal?_addSignals, h]
    rfl

/-- As many names come back as keywords are entered. -/
theorem length_addSignals (r : Registry) (id : Uuid) (keywords : List String) :
    (r.addSignals id keywords).2.length = keywords.length :=
  length_freeNames _ _

theorem nodup_addSignals (r : Registry) (id : Uuid) (keywords : List String) :
    (r.addSignals id keywords).2.Nodup :=
  nodup_freeNames _ _

/-- The names that come back were not in use. -/
theorem signal?_eq_none_of_mem (h : name ∈ (r.addSignals id keywords).2) :
    r.signal? name = none :=
  signal?_eq_none_iff.mpr (not_mem_of_mem_freeNames h)

/-- Entries under distinct names are found by name. -/
theorem forall₂_lookup (id : Uuid) {names : List String} (hnodup : names.Nodup)
    (hlength : names.length = keywords.length) :
    List.Forall₂ (fun name keyword =>
      (List.zipWith (fun name keyword => (name, Signal.mk id keyword)) names keywords).lookup name
        = some ⟨id, keyword⟩) names keywords := by
  induction names generalizing keywords with
  | nil =>
    obtain rfl := List.length_eq_zero_iff.mp hlength.symm
    exact .nil
  | cons first names ih =>
    rcases keywords with - | ⟨keyword, keywords⟩
    · cases hlength
    · obtain ⟨hfirst, hnodup⟩ := List.nodup_cons.mp hnodup
      refine .cons List.lookup_cons_self ?_
      have hrest := ih hnodup (Nat.succ.inj hlength)
      -- The first entry is under another name than those behind it.
      refine ((List.forall₂_and_left names keywords).mpr ⟨fun _ h => h, hrest⟩).imp ?_
      rintro name keyword' ⟨hname, hlookup⟩
      have hne : name ≠ first := fun heq => hfirst (heq ▸ hname)
      rw [List.zipWith_cons_cons, List.lookup_cons, beq_false_of_ne hne, hlookup]

/-- Each name that comes back leads to its keyword. -/
theorem forall₂_addSignals (r : Registry) (id : Uuid) (keywords : List String) :
    List.Forall₂ (fun name keyword =>
      (r.addSignals id keywords).1.signal? name = some ⟨id, keyword⟩)
      (r.addSignals id keywords).2 keywords := by
  have hfound := forall₂_lookup id (nodup_addSignals r id keywords)
    (length_addSignals r id keywords)
  refine ((List.forall₂_and_left _ _).mpr ⟨fun _ h => h, hfound⟩).imp ?_
  rintro name keyword ⟨hname, hlookup⟩
  -- Earlier signals come first in the look-up, so the name has to be new.
  rw [signal?_addSignals, signal?_eq_none_of_mem hname, hlookup]
  rfl

/-- A signal afterwards was there before, or is one of those entered. -/
theorem signal?_addSignals_cases
    (h : (r.addSignals id keywords).1.signal? name = some signal) :
    r.signal? name = some signal ∨ signal.reader = id ∧ signal.keyword ∈ keywords := by
  rw [signal?_addSignals] at h
  rcases Option.or_eq_some_iff.mp h with h | ⟨-, h⟩
  · exact .inl h
  · obtain ⟨before, behind, hentries, -⟩ := List.lookup_eq_some_iff.mp h
    have hmem : (name, signal) ∈ List.zipWith (fun name keyword => (name, Signal.mk id keyword))
        (r.addSignals id keywords).2 keywords := by
      rw [hentries]
      exact List.mem_append_right _ List.mem_cons_self
    rw [← List.map_uncurry_zip_eq_zipWith] at hmem
    obtain ⟨⟨found, keyword⟩, hpair, heq⟩ := List.mem_map.mp hmem
    obtain ⟨rfl, rfl⟩ := Prod.mk.inj heq
    exact .inr ⟨rfl, (List.of_mem_zip hpair).2⟩

/-- Entering a reader under a new identifier, with its signals, changes nothing else. -/
theorem extends_enter (h : r.reader? id = none) (reader : Reader) :
    r.Extends (r.enter id reader).1 :=
  (extends_addReader h reader).trans (extends_addSignals _ _ _)

/-- A reader that was entered is found. -/
theorem reader?_enter (r : Registry) (id : Uuid) (reader : Reader) :
    (r.enter id reader).1.reader? id = some reader :=
  reader?_addReader_self ..

/-- A reader under a new identifier is entered behind the others, and so are its signals. -/
theorem enter_of_new (h : r.reader? id = none) (reader : Reader) :
    (r.enter id reader).1 = ⟨r.readers ++ [(id, reader)],
      r.signals ++ List.zipWith (fun name v => (name, ⟨id, v.keyword⟩)) (r.enter id reader).2
        reader.series.vectors⟩ := by
  rw [enter, addReader_of_new h]
  simp only [addSignals, Series.keywords, List.zipWith_map_right]

/-- One name for each vector comes back. -/
theorem length_enter (r : Registry) (id : Uuid) (reader : Reader) :
    (r.enter id reader).2.length = reader.series.vectors.length := by
  rw [enter, length_addSignals, Series.keywords, List.length_map]

theorem nodup_enter (r : Registry) (id : Uuid) (reader : Reader) :
    (r.enter id reader).2.Nodup :=
  nodup_addSignals _ _ _

/-- The names that come back were not in use. -/
theorem not_mem_names_of_mem_enter (h : name ∈ (r.enter id reader).2) : name ∉ r.names :=
  not_mem_of_mem_freeNames h

/-! ### Signals and their readers -/

/-- Every signal has its reader, and its keyword is one of the reader's series. -/
def Resolves (r : Registry) : Prop :=
  ∀ name signal, r.signal? name = some signal →
    ∃ reader, r.reader? signal.reader = some reader ∧ signal.keyword ∈ reader.series.keywords

theorem resolves_empty : empty.Resolves := by
  intro name signal h
  cases h

/-- A reader under a new identifier takes no signal from another one. -/
theorem Resolves.addReader (h : r.Resolves) (hid : r.reader? id = none) (reader : Reader) :
    (r.addReader id reader).Resolves := by
  intro name signal hsignal
  obtain ⟨found, hfound, hkeyword⟩ := h name signal hsignal
  exact ⟨found, (extends_addReader hid reader).reader _ _ hfound, hkeyword⟩

/-- The signals of a reader may be entered once the reader is. -/
theorem Resolves.addSignals (h : r.Resolves) (hreader : r.reader? id = some reader) :
    (r.addSignals id reader.series.keywords).1.Resolves := by
  intro name signal hsignal
  rcases signal?_addSignals_cases hsignal with hold | ⟨rfl, hkeyword⟩
  · exact h name signal hold
  · exact ⟨reader, hreader, hkeyword⟩

end Registry

end ReservoirPlot
