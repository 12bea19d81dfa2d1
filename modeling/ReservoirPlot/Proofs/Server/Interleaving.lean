/-
ReservoirPlot/Proofs/Server/Interleaving.lean

Calls that take turns.  A call that enters a reader has two steps, the reader and
then all its signals; a call that fetches a signal has two steps, the signal and
then its reader.  Between the steps of one call any others may take theirs.

`EntryHolds` and `FetchHolds` say what the registry has for a call, by how far the
call has come.  Together with `Registry.Resolves` this is `Calls.Invariant`, which
holds at the start and after every step (`Invariant.step`), so at every moment that
some order of turns leads to (`Reachable.invariant`).  A call that enters a reader
can show its signals to the others at once, since its reader is there before them.
The invariant need not say that the names of different calls differ: they do, as
they lead to different readers (`Invariant.disjoint`).

Main result: `names_resolve`.
-/
import Mathlib.Data.List.Induction
import Mathlib.Logic.Function.Basic
import ReservoirPlot.Proofs.Series.Conversion
import ReservoirPlot.Proofs.Server.Registry
import ReservoirPlot.Server.Basic

namespace ReservoirPlot

/-! ### Calls and their turns -/

/-- What some calls are called with: those that enter readers, and those that fetch signals. -/
structure Calls (ι κ : Type*) where
  /-- The identifier that the reader of a call gets. -/
  id : ι → Uuid
  reader : ι → Reader
  /-- The name of the signal that a call fetches. -/
  wanted : κ → String

/-- How far a call that enters a reader has come. -/
inductive EntryStage
  | waiting
  | stored
  | done (names : List String)
deriving DecidableEq

/-- How far a call that fetches a signal has come. -/
inductive FetchStage
  | waiting
  | missing
  | found (signal : Signal)
  | answered (signal : Signal) (reader? : Option Reader)
deriving DecidableEq

/-- Where a call is once it has looked its signal up. -/
def FetchStage.lookedUp : Option Signal → FetchStage
  | none => missing
  | some signal => found signal

/-- The series and the keyword that a call has to send. -/
def FetchStage.target? : FetchStage → Option (Series × String)
  | answered signal (some reader) => some (reader.series, signal.keyword)
  | _ => none

/-- The registry at some moment, and how far each call has come. -/
structure Moment (ι κ : Type*) where
  registry : Registry
  entries : ι → EntryStage
  fetches : κ → FetchStage

/-- Nothing was read, and no call has begun. -/
def Moment.start (ι κ : Type*) : Moment ι κ :=
  ⟨.empty, fun _ => .waiting, fun _ => .waiting⟩

namespace Calls

variable {ι κ : Type*}

section Entering

variable [DecidableEq ι] {c : Calls ι κ} {m : Moment ι κ} {i : ι}

/-- The next step of a call that enters a reader. -/
def enterStep (c : Calls ι κ) (m : Moment ι κ) (i : ι) : Moment ι κ :=
  match m.entries i with
  | .waiting =>
    { m with
      registry := m.registry.addReader (c.id i) (c.reader i)
      entries := Function.update m.entries i .stored }
  | .stored =>
    let (registry, names) := m.registry.addSignals (c.id i) (c.reader i).series.keywords
    { m with registry, entries := Function.update m.entries i (.done names) }
  | .done _ => m

theorem enterStep_of_waiting (h : m.entries i = .waiting) : c.enterStep m i
    = ⟨m.registry.addReader (c.id i) (c.reader i), Function.update m.entries i .stored,
        m.fetches⟩ := by
  rw [enterStep, h]

theorem enterStep_of_stored (h : m.entries i = .stored) : c.enterStep m i
    = ⟨(m.registry.addSignals (c.id i) (c.reader i).series.keywords).1,
        Function.update m.entries i
          (.done (m.registry.addSignals (c.id i) (c.reader i).series.keywords).2),
        m.fetches⟩ := by
  rw [enterStep, h]

theorem enterStep_of_done {names : List String} (h : m.entries i = .done names) :
    c.enterStep m i = m := by
  rw [enterStep, h]

/-- The two steps of entering a reader, one right after the other, are `Registry.enter`. -/
theorem enterStep_enterStep (h : m.entries i = .waiting) : c.enterStep (c.enterStep m i) i
    = ⟨(m.registry.enter (c.id i) (c.reader i)).1,
        Function.update m.entries i (.done (m.registry.enter (c.id i) (c.reader i)).2),
        m.fetches⟩ := by
  rw [enterStep_of_waiting h, enterStep_of_stored (Function.update_self ..)]
  show Moment.mk _ (Function.update (Function.update m.entries i .stored) i _) _ = _
  rw [Function.update_idem]
  rfl

end Entering

section Fetching

variable [DecidableEq κ] {c : Calls ι κ} {m : Moment ι κ} {k : κ}

/-- The next step of a call that fetches a signal. -/
def fetchStep (c : Calls ι κ) (m : Moment ι κ) (k : κ) : Moment ι κ :=
  match m.fetches k with
  | .waiting =>
    { m with
      fetches := Function.update m.fetches k (.lookedUp (m.registry.signal? (c.wanted k))) }
  | .found signal =>
    { m with
      fetches := Function.update m.fetches k
        (.answered signal (m.registry.reader? signal.reader)) }
  | .missing => m
  | .answered .. => m

theorem fetchStep_of_waiting (h : m.fetches k = .waiting) : c.fetchStep m k
    = ⟨m.registry, m.entries,
        Function.update m.fetches k (.lookedUp (m.registry.signal? (c.wanted k)))⟩ := by
  rw [fetchStep, h]

theorem fetchStep_of_found {signal : Signal} (h : m.fetches k = .found signal) : c.fetchStep m k
    = ⟨m.registry, m.entries,
        Function.update m.fetches k (.answered signal (m.registry.reader? signal.reader))⟩ := by
  rw [fetchStep, h]

theorem fetchStep_of_missing (h : m.fetches k = .missing) : c.fetchStep m k = m := by
  rw [fetchStep, h]

theorem fetchStep_of_answered {signal : Signal} {reader? : Option Reader}
    (h : m.fetches k = .answered signal reader?) : c.fetchStep m k = m := by
  rw [fetchStep, h]

/-- The two steps of fetching a signal, one right after the other, are `Server.signal?`. -/
theorem target?_fetchStep_fetchStep (h : m.fetches k = .waiting) {s : Server}
    (hs : s.registry = m.registry) :
    ((c.fetchStep (c.fetchStep m k) k).fetches k).target? = s.signal? (c.wanted k) := by
  rw [fetchStep_of_waiting h, Server.signal?, hs]
  rcases m.registry.signal? (c.wanted k) with - | signal
  · rw [fetchStep_of_missing (Function.update_self ..)]
    show FetchStage.target? (Function.update m.fetches k .missing k) = none
    rw [Function.update_self]
    rfl
  · rw [fetchStep_of_found (Function.update_self ..)]
    show FetchStage.target? (Function.update (Function.update m.fetches k (.found signal)) k
      (.answered signal (m.registry.reader? signal.reader)) k) = _
    rw [Function.update_self]
    show _ = m.registry.reader? signal.reader >>= _
    rcases m.registry.reader? signal.reader with - | reader <;> rfl

end Fetching

/-! ### What holds of a call -/

/-- What a registry has for a call that enters a reader, by how far the call has come. -/
def EntryHolds (r : Registry) (id : Uuid) (reader : Reader) : EntryStage → Prop
  | .waiting => r.reader? id = none
  | .stored => r.reader? id = some reader
  | .done names => r.reader? id = some reader ∧ names.Nodup
      ∧ List.Forall₂ (fun name keyword => r.signal? name = some ⟨id, keyword⟩)
        names reader.series.keywords

/-- What a registry has for a call that fetches a signal, by how far the call has come. -/
def FetchHolds (r : Registry) (wanted : String) : FetchStage → Prop
  | .waiting => True
  | .missing => True
  | .found signal => r.signal? wanted = some signal
  | .answered signal reader? =>
    ∃ reader, reader? = some reader ∧ signal.keyword ∈ reader.series.keywords

variable {r later : Registry}

/-- More signals and other readers do not matter to a call that enters a reader. -/
theorem EntryHolds.extends {id : Uuid} {reader : Reader} {stage : EntryStage}
    (h : EntryHolds r id reader stage) (hextends : r.Extends later)
    (hreader : later.reader? id = r.reader? id) : EntryHolds later id reader stage := by
  rcases stage with - | - | names
  · exact hreader.trans h
  · exact hreader.trans h
  · obtain ⟨hfound, hnodup, hnames⟩ := h
    exact ⟨hreader.trans hfound, hnodup, hextends.forall₂ hnames⟩

theorem FetchHolds.extends {wanted : String} {stage : FetchStage}
    (h : FetchHolds r wanted stage) (hextends : r.Extends later) :
    FetchHolds later wanted stage := by
  rcases stage with - | - | signal | ⟨signal, reader?⟩
  · trivial
  · trivial
  · exact hextends.signal _ _ h
  · exact h

/-- A signal that was found is the one that was wanted. -/
theorem fetchHolds_lookedUp (r : Registry) (wanted : String) :
    FetchHolds r wanted (.lookedUp (r.signal? wanted)) := by
  rcases h : r.signal? wanted with - | signal
  · trivial
  · exact h

/-! ### One step -/

/-- What holds at every moment, if no two calls enter readers under the same identifier. -/
structure Invariant (c : Calls ι κ) (m : Moment ι κ) : Prop where
  resolves : m.registry.Resolves
  entries : ∀ i, EntryHolds m.registry (c.id i) (c.reader i) (m.entries i)
  fetches : ∀ k, FetchHolds m.registry (c.wanted k) (m.fetches k)

theorem invariant_start (c : Calls ι κ) : c.Invariant (.start ι κ) where
  resolves := Registry.resolves_empty
  entries _ := rfl
  fetches _ := trivial

variable {c : Calls ι κ} {m : Moment ι κ}

/-- Names of different calls differ, since they lead to different readers. -/
theorem Invariant.disjoint (h : c.Invariant m) (hid : Function.Injective c.id) {i j : ι}
    (hne : i ≠ j) {names names' : List String} (hi : m.entries i = .done names)
    (hj : m.entries j = .done names') : names.Disjoint names' := by
  have hentry := h.entries i
  have hentry' := h.entries j
  rw [hi] at hentry
  rw [hj] at hentry'
  intro name hname hname'
  obtain ⟨keyword, hsignal⟩ := Registry.exists_signal hentry.2.2 hname
  obtain ⟨keyword', hsignal'⟩ := Registry.exists_signal hentry'.2.2 hname'
  rw [hsignal] at hsignal'
  exact hne (hid (Signal.mk.inj (Option.some.inj hsignal')).1)

variable [DecidableEq ι] [DecidableEq κ]

/-- A call takes its next step, if it has one. -/
def step (c : Calls ι κ) (m : Moment ι κ) : ι ⊕ κ → Moment ι κ
  | .inl i => c.enterStep m i
  | .inr k => c.fetchStep m k

/-- No step removes or changes a reader or a signal. -/
theorem Invariant.extends_step (h : c.Invariant m) (call : ι ⊕ κ) :
    m.registry.Extends (c.step m call).registry := by
  rcases call with i | k
  · show m.registry.Extends (c.enterStep m i).registry
    have hentry := h.entries i
    rcases hi : m.entries i with - | - | names
    · rw [hi] at hentry
      rw [enterStep_of_waiting hi]
      exact Registry.extends_addReader hentry _
    · rw [enterStep_of_stored hi]
      exact Registry.extends_addSignals ..
    · rw [enterStep_of_done hi]
      exact .refl _
  · show m.registry.Extends (c.fetchStep m k).registry
    have hsame : (c.fetchStep m k).registry = m.registry := by
      rw [fetchStep]
      split <;> rfl
    rw [hsame]
    exact .refl _

/-- **One step keeps the invariant**, whoever takes it. -/
theorem Invariant.step (h : c.Invariant m) (hid : Function.Injective c.id) (call : ι ⊕ κ) :
    c.Invariant (c.step m call) := by
  have hextends := h.extends_step call
  rcases call with i | k
  · have hentry := h.entries i
    show c.Invariant (c.enterStep m i)
    change m.registry.Extends (c.enterStep m i).registry at hextends
    rcases hi : m.entries i with - | - | names
    · rw [hi] at hentry
      rw [enterStep_of_waiting hi] at hextends ⊢
      refine ⟨h.resolves.addReader hentry _, ?_, fun k => (h.fetches k).extends hextends⟩
      refine (Function.forall_update_iff _ _).mpr ⟨Registry.reader?_addReader_self .., ?_⟩
      intro j hj
      -- Only here the identifiers have to be distinct.
      exact (h.entries j).extends hextends (Registry.reader?_addReader_of_ne (hid.ne hj) ..)
    · rw [hi] at hentry
      rw [enterStep_of_stored hi] at hextends ⊢
      -- The reader that the first step stored is the one that the signals need.
      refine ⟨h.resolves.addSignals hentry, ?_, fun k => (h.fetches k).extends hextends⟩
      refine (Function.forall_update_iff _ _).mpr ⟨⟨hentry, ?_, ?_⟩, ?_⟩
      · exact Registry.nodup_addSignals ..
      · exact Registry.forall₂_addSignals ..
      · intro j _
        exact (h.entries j).extends hextends (Registry.reader?_addSignals ..)
    · rwa [enterStep_of_done hi]
  · have hfetch := h.fetches k
    show c.Invariant (c.fetchStep m k)
    rcases hk : m.fetches k with - | - | signal | ⟨signal, reader?⟩
    · rw [fetchStep_of_waiting hk]
      refine ⟨h.resolves, h.entries, (Function.forall_update_iff _ _).mpr ⟨?_, ?_⟩⟩
      · exact fetchHolds_lookedUp ..
      · exact fun l _ => h.fetches l
    · rwa [fetchStep_of_missing hk]
    · rw [hk] at hfetch
      rw [fetchStep_of_found hk]
      refine ⟨h.resolves, h.entries, (Function.forall_update_iff _ _).mpr ⟨?_, ?_⟩⟩
      -- The signal is still there, and so is its reader.
      · exact h.resolves _ _ hfetch
      · exact fun l _ => h.fetches l
    · rwa [fetchStep_of_answered hk]

/-! ### Every order of turns -/

/-- The moment after some turns, from the start. -/
def after (c : Calls ι κ) (turns : List (ι ⊕ κ)) : Moment ι κ :=
  turns.foldl c.step (.start ι κ)

/-- The moments that some order of turns leads to. -/
def Reachable (c : Calls ι κ) (m : Moment ι κ) : Prop :=
  ∃ turns, c.after turns = m

theorem Reachable.invariant (h : c.Reachable m) (hid : Function.Injective c.id) :
    c.Invariant m := by
  obtain ⟨turns, rfl⟩ := h
  -- The last turn is the one to take off: the invariant is known of the moment before it.
  induction turns using List.reverseRecOn with
  | nil => exact c.invariant_start
  | append_singleton turns call ih =>
    rw [after, List.foldl_concat]
    exact ih.step hid call

/-- **Names lead to readers at every moment, in whatever order the calls take their turns.**  If
no two calls enter readers under the same identifier, then every signal has its reader and a
vector of the reader's series, so a call that found its signal finds both; no step removes or
changes a reader or a signal; and a call that has entered its reader has one name for each vector
of the series, in order, which leads to this reader and to the vector's keyword, and which no
other vector has, of this series or of any other one that was entered. -/
theorem names_resolve (hid : Function.Injective c.id) (h : c.Reachable m) :
    (∀ name signal, m.registry.signal? name = some signal →
      ∃ reader, m.registry.reader? signal.reader = some reader
        ∧ signal.keyword ∈ reader.series.keywords)
    ∧ (∀ k signal, m.fetches k = .found signal →
      ∃ reader v, m.registry.reader? signal.reader = some reader
        ∧ reader.series.vector? signal.keyword = some v)
    ∧ (∀ k signal reader?, m.fetches k = .answered signal reader? →
      ∃ reader v, reader? = some reader ∧ reader.series.vector? signal.keyword = some v)
    ∧ (∀ call, m.registry.Extends (c.step m call).registry)
    ∧ (∀ i names, m.entries i = .done names →
      m.registry.reader? (c.id i) = some (c.reader i)
        ∧ List.Forall₂ (fun name v => m.registry.signal? name = some ⟨c.id i, v.keyword⟩)
          names (c.reader i).series.vectors)
    ∧ (∀ i names, m.entries i = .done names → names.Nodup)
    ∧ ∀ i j names names', i ≠ j → m.entries i = .done names → m.entries j = .done names' →
      names.Disjoint names' := by
  have hinv := h.invariant hid
  refine ⟨hinv.resolves, ?_, ?_, hinv.extends_step, ?_, ?_, ?_⟩
  · intro k signal hk
    have hfetch := hinv.fetches k
    rw [hk] at hfetch
    obtain ⟨reader, hreader, hkeyword⟩ := hinv.resolves _ _ hfetch
    obtain ⟨v, hv⟩ := Series.exists_vector? hkeyword
    exact ⟨reader, v, hreader, hv⟩
  · intro k signal reader? hk
    have hfetch := hinv.fetches k
    rw [hk] at hfetch
    obtain ⟨reader, hreader, hkeyword⟩ := hfetch
    obtain ⟨v, hv⟩ := Series.exists_vector? hkeyword
    exact ⟨reader, v, hreader, hv⟩
  · intro i names hi
    have hentry := hinv.entries i
    rw [hi] at hentry
    obtain ⟨hreader, -, hnames⟩ := hentry
    refine ⟨hreader, ?_⟩
    rwa [Series.keywords, List.forall₂_map_right_iff] at hnames
  · intro i names hi
    have hentry := hinv.entries i
    rw [hi] at hentry
    exact hentry.2.1
  · intro i j names names' hne hi hj
    exact hinv.disjoint hid hne hi hj

/-- Two calls that enter the same series, and one that fetches a signal of it. -/
def sameSeries : Calls Bool Unit where
  id i := if i then ⟨1⟩ else ⟨0⟩
  reader _ := ⟨"wells.plt", outOfOrder, outOfOrderSeries⟩
  wanted _ := "FOPR"

/-- Turns in which the call that begins first enters its signals last. -/
def overtaking : List (Bool ⊕ Unit) :=
  [.inl false, .inl true, .inl true, .inr (), .inl false, .inr ()]

theorem names_of_sameSeries :
    Function.Injective sameSeries.id
      ∧ ∃ m, sameSeries.Reachable m
        ∧ m.entries true = .done ["FOPR", "FWCT"] ∧ m.entries false = .done ["FOPR_1", "FWCT_1"]
        ∧ ["FOPR", "FWCT"].Disjoint ["FOPR_1", "FWCT_1"]
        ∧ m.fetches () = .answered ⟨⟨1⟩, "FOPR"⟩ (some (sameSeries.reader true))
        ∧ ∃ reader v, some (sameSeries.reader true) = some reader
          ∧ reader.series.vector? "FOPR" = some v := by
  have hid : Function.Injective sameSeries.id :=
    show ∀ i j, sameSeries.id i = sameSeries.id j → i = j by decide
  have hreachable : sameSeries.Reachable (sameSeries.after overtaking) := ⟨_, rfl⟩
  obtain ⟨-, -, hanswered, -, -, -, hdisjoint⟩ := names_resolve hid hreachable
  have htrue : (sameSeries.after overtaking).entries true = .done ["FOPR", "FWCT"] := by decide
  have hfalse : (sameSeries.after overtaking).entries false = .done ["FOPR_1", "FWCT_1"] := by
    decide
  have hfetch : (sameSeries.after overtaking).fetches ()
      = .answered ⟨⟨1⟩, "FOPR"⟩ (some (sameSeries.reader true)) := by
    decide
  exact ⟨hid, _, hreachable, htrue, hfalse, hdisjoint _ _ _ _ (by decide) htrue hfalse, hfetch,
    hanswered _ _ _ hfetch⟩

end Calls

end ReservoirPlot
