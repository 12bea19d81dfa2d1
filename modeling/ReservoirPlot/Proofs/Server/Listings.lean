/-
ReservoirPlot/Proofs/Server/Listings.lean

How readers are listed.  A listing is made anew for each request, by picking the
signals of a reader out of all of them.  That it stays what the reader was told
when it was entered rests on three facts that every step of a run keeps
(`Registry.Orderly`):

* no identifier is given twice;
* no name is given twice;
* every signal is of a reader that is there.

Entering a reader adds signals of this reader only, so the names of the others are
the same before and after (`namesOf_enter_of_ne`), and its own are those that come
back (`perm_namesOf_enter`).

Main result: `listings_of_reaches`.
-/
import Mathlib.Data.List.Nodup
import ReservoirPlot.Proofs.Server.Signals

namespace ReservoirPlot

/-! ### Registries in order -/

namespace Registry

variable {r : Registry} {id id' : Uuid} {reader : Reader} {name : String}

/-- No identifier and no name is there twice, and every signal is of a reader that is there. -/
structure Orderly (r : Registry) : Prop where
  ids : (r.readers.map (·.1)).Nodup
  names : r.names.Nodup
  owned : ∀ entry ∈ r.signals, entry.2.reader ∈ r.readers.map (·.1)

theorem orderly_empty : empty.Orderly :=
  ⟨List.nodup_nil, List.nodup_nil, fun _ h => absurd h List.not_mem_nil⟩

/-- What is entered with a reader: signals of this reader under the names that come back. -/
theorem exists_signals_enter (hid : r.reader? id = none) (reader : Reader) :
    ∃ entered, (r.enter id reader).1 = ⟨r.readers ++ [(id, reader)], r.signals ++ entered⟩
      ∧ entered.map (·.1) = (r.enter id reader).2 ∧ ∀ entry ∈ entered, entry.2.reader = id := by
  refine ⟨_, enter_of_new hid reader, ?_, ?_⟩
  · rw [← List.map_uncurry_zip_eq_zipWith, List.map_map]
    exact List.map_fst_zip (Nat.le_of_eq (length_enter r id reader))
  · intro entry hentry
    rw [← List.map_uncurry_zip_eq_zipWith] at hentry
    obtain ⟨pair, -, rfl⟩ := List.mem_map.mp hentry
    rfl

theorem Orderly.enter (h : r.Orderly) (hid : r.reader? id = none) (reader : Reader) :
    (r.enter id reader).1.Orderly := by
  obtain ⟨entered, hafter, hnames, hentered⟩ := exists_signals_enter hid reader
  rw [hafter]
  refine ⟨?_, ?_, ?_⟩
  · show ((r.readers ++ [(id, reader)]).map (·.1)).Nodup
    rw [List.map_append]
    refine List.nodup_append.mpr ⟨h.ids, List.nodup_singleton id, ?_⟩
    rintro old hold _ hnew rfl
    rw [List.mem_singleton.mp hnew] at hold
    exact reader?_eq_none_iff.mp hid hold
  · show ((r.signals ++ entered).map (·.1)).Nodup
    rw [List.map_append, hnames]
    refine List.nodup_append.mpr ⟨h.names, nodup_enter .., ?_⟩
    rintro old hold _ hnew rfl
    exact not_mem_names_of_mem_enter hnew hold
  · intro entry hentry
    show entry.2.reader ∈ (r.readers ++ [(id, reader)]).map (·.1)
    rw [List.map_append]
    rcases List.mem_append.mp hentry with hold | hnew
    · exact List.mem_append_left _ (h.owned entry hold)
    · rw [hentered entry hnew]
      exact List.mem_append_right _ (List.mem_singleton_self _)

/-- A signal that is found has a reader that is found. -/
theorem Orderly.exists_reader (h : r.Orderly) {signal : Signal}
    (hsignal : r.signal? name = some signal) : ∃ reader, r.reader? signal.reader = some reader := by
  obtain ⟨front, back, hsignals, -⟩ := List.lookup_eq_some_iff.mp hsignal
  have hmem : (name, signal) ∈ r.signals := hsignals ▸ List.mem_append_right _ List.mem_cons_self
  refine Option.ne_none_iff_exists'.mp fun hnone => ?_
  exact reader?_eq_none_iff.mp hnone (h.owned _ hmem)

/-! ### The names of a reader -/

theorem perm_namesOf (r : Registry) (id : Uuid) :
    (r.namesOf id).Perm ((r.signals.filter fun entry => entry.2.reader = id).map (·.1)) :=
  List.mergeSort_perm _ _

theorem mem_namesOf : name ∈ r.namesOf id ↔ ∃ signal, (name, signal) ∈ r.signals
    ∧ signal.reader = id := by
  rw [(r.perm_namesOf id).mem_iff, List.mem_map]
  constructor
  · rintro ⟨⟨found, signal⟩, hentry, rfl⟩
    obtain ⟨hmem, hreader⟩ := List.mem_filter.mp hentry
    exact ⟨signal, hmem, of_decide_eq_true hreader⟩
  · rintro ⟨signal, hmem, hreader⟩
    exact ⟨(name, signal), List.mem_filter.mpr ⟨hmem, decide_eq_true hreader⟩, rfl⟩

theorem Orderly.nodup_namesOf (h : r.Orderly) (id : Uuid) : (r.namesOf id).Nodup :=
  (r.perm_namesOf id).nodup_iff.mpr (h.names.sublist (List.filter_sublist.map _))

/-- The names are listed in ascending order. -/
theorem Orderly.pairwise_namesOf (h : r.Orderly) (id : Uuid) :
    (r.namesOf id).Pairwise (· < ·) := by
  have hsorted : (r.namesOf id).Pairwise fun a b => decide (a ≤ b) = true :=
    List.pairwise_mergeSort (fun _ _ _ => by simpa using String.le_trans)
      (fun a b => by simpa using String.le_total a b) _
  refine (hsorted.and (h.nodup_namesOf id)).imp ?_
  rintro a b ⟨hle, hne⟩
  by_contra hlt
  exact hne (String.le_antisymm (of_decide_eq_true hle) (String.not_lt.mp hlt))

/-- A name is listed for one reader only. -/
theorem Orderly.disjoint_namesOf (h : r.Orderly) (hne : id ≠ id') :
    (r.namesOf id).Disjoint (r.namesOf id') := by
  intro name hname hname'
  obtain ⟨signal, hmem, rfl⟩ := mem_namesOf.mp hname
  obtain ⟨signal', hmem', rfl⟩ := mem_namesOf.mp hname'
  have hsame := (lookup_of_mem h.names hmem).symm.trans (lookup_of_mem h.names hmem')
  exact hne (congrArg Signal.reader (Option.some.inj hsame))

/-- Every name is listed. -/
theorem Orderly.mem_names_iff (h : r.Orderly) :
    name ∈ r.names ↔ ∃ id ∈ r.readers.map (·.1), name ∈ r.namesOf id := by
  constructor
  · intro hname
    obtain ⟨⟨found, signal⟩, hentry, rfl⟩ := List.mem_map.mp hname
    exact ⟨signal.reader, h.owned _ hentry, mem_namesOf.mpr ⟨signal, hentry, rfl⟩⟩
  · rintro ⟨id, -, hname⟩
    obtain ⟨signal, hentry, -⟩ := mem_namesOf.mp hname
    exact List.mem_map_of_mem hentry

/-- Another reader leaves the names of a reader as they are. -/
theorem namesOf_enter_of_ne (hid : r.reader? id = none) (hne : id' ≠ id) (reader : Reader) :
    (r.enter id reader).1.namesOf id' = r.namesOf id' := by
  obtain ⟨entered, hafter, -, hentered⟩ := exists_signals_enter hid reader
  have hnone : (entered.filter fun entry => entry.2.reader = id') = [] := by
    refine List.filter_eq_nil_iff.mpr fun entry hentry => ?_
    simpa [hentered entry hentry] using hne.symm
  rw [hafter, namesOf, List.filter_append, hnone, List.append_nil]
  rfl

/-- The names of a reader that was entered are those that came back. -/
theorem Orderly.perm_namesOf_enter (h : r.Orderly) (hid : r.reader? id = none) (reader : Reader) :
    ((r.enter id reader).1.namesOf id).Perm (r.enter id reader).2 := by
  obtain ⟨entered, hafter, hnames, hentered⟩ := exists_signals_enter hid reader
  have hnone : (r.signals.filter fun entry => entry.2.reader = id) = [] := by
    refine List.filter_eq_nil_iff.mpr fun entry hentry => ?_
    have hmem := h.owned entry hentry
    simpa using fun heq : entry.2.reader = id => reader?_eq_none_iff.mp hid (heq ▸ hmem)
  have hall : (entered.filter fun entry => entry.2.reader = id) = entered :=
    List.filter_eq_self.mpr fun entry hentry => decide_eq_true (hentered entry hentry)
  rw [← hnames, hafter]
  refine (perm_namesOf _ id).trans (.of_eq ?_)
  rw [List.filter_append, hnone, hall, List.nil_append]

/-! ### Listings -/

section

variable {order : List (Uuid × Reader)}

/-- There is a listing for each reader, in whatever order they come. -/
theorem perm_listingsIn (horder : order.Perm r.readers) : (r.listingsIn order).Perm
    (r.readers.map fun entry => ⟨entry.1, entry.2.path, r.namesOf entry.1⟩) :=
  (List.mergeSort_perm _ _).trans (horder.map _)

theorem mem_listingsIn (horder : order.Perm r.readers) {l : Listing} : l ∈ r.listingsIn order
    ↔ ∃ reader, (l.id, reader) ∈ r.readers ∧ l.path = reader.path ∧ l.names = r.namesOf l.id := by
  rw [(perm_listingsIn horder).mem_iff, List.mem_map]
  constructor
  · rintro ⟨⟨id, reader⟩, hentry, rfl⟩
    exact ⟨reader, hentry, rfl, rfl⟩
  · rintro ⟨reader, hentry, hpath, hnames⟩
    exact ⟨(l.id, reader), hentry, by rw [← hpath, ← hnames]⟩

/-- The readers are listed by ascending path. -/
theorem pairwise_listingsIn (r : Registry) (order : List (Uuid × Reader)) :
    (r.listingsIn order).Pairwise (·.path ≤ ·.path) := by
  have hsorted : (r.listingsIn order).Pairwise fun a b => decide (a.path ≤ b.path) = true :=
    List.pairwise_mergeSort (fun _ _ _ => by simpa using String.le_trans)
      (fun a b => by simpa using String.le_total a.path b.path) _
  exact hsorted.imp fun h => of_decide_eq_true h

theorem Orderly.nodup_ids_listingsIn (h : r.Orderly) (horder : order.Perm r.readers) :
    ((r.listingsIn order).map (·.id)).Nodup := by
  rw [((perm_listingsIn horder).map _).nodup_iff, List.map_map]
  exact h.ids

/-- No two listings have a name in common. -/
theorem Orderly.pairwise_disjoint_listingsIn (h : r.Orderly) (horder : order.Perm r.readers) :
    (r.listingsIn order).Pairwise fun l m => l.names.Disjoint m.names := by
  refine (List.pairwise_map.mp (h.nodup_ids_listingsIn horder)).imp_of_mem ?_
  intro l m hl hm hne
  obtain ⟨-, -, -, hnames⟩ := (mem_listingsIn horder).mp hl
  obtain ⟨-, -, -, hnames'⟩ := (mem_listingsIn horder).mp hm
  rw [hnames, hnames']
  exact h.disjoint_namesOf hne

/-- The listings have all names, each of them once. -/
theorem Orderly.perm_flatMap_listingsIn (h : r.Orderly) (horder : order.Perm r.readers) :
    ((r.listingsIn order).flatMap (·.names)).Perm r.names := by
  refine (List.perm_ext_iff_of_nodup (List.nodup_flatMap.mpr ⟨?_, ?_⟩) h.names).mpr ?_
  · intro l hl
    obtain ⟨-, -, -, hnames⟩ := (mem_listingsIn horder).mp hl
    exact hnames ▸ h.nodup_namesOf l.id
  · exact h.pairwise_disjoint_listingsIn horder
  · intro name
    rw [h.mem_names_iff, List.mem_flatMap]
    constructor
    · rintro ⟨l, hl, hname⟩
      obtain ⟨reader, hentry, -, hnames⟩ := (mem_listingsIn horder).mp hl
      exact ⟨l.id, List.mem_map_of_mem hentry, hnames ▸ hname⟩
    · rintro ⟨id, hid, hname⟩
      obtain ⟨⟨id, reader⟩, hentry, rfl⟩ := List.mem_map.mp hid
      exact ⟨⟨id, reader.path, r.namesOf id⟩,
        (mem_listingsIn horder).mpr ⟨reader, hentry, rfl, rfl⟩, hname⟩

end

end Registry

namespace Server

variable {s t u : Server} {arrival : Arrival} {r : Request} {reader : Reader} {id : Uuid}
variable {names : List String}

/-! ### Along a run -/

/-- On the way from `s` to `t` comes `u`, where a request loads a reader under a new identifier
and is told the names of its signals. -/
structure Loading (s u t : Server) (arrival : Arrival) (r : Request) (reader : Reader)
    (names : List String) : Prop where
  before : s.Reaches u
  new : u.registry.reader? arrival.id = none
  loads : u.Loads r reader
  told : (u.respond arrival r).1 = .ofJson (enteredJson arrival reader.path names)
  later : (u.respond arrival r).2.Reaches t

/-- A run keeps the registry in order. -/
theorem Reaches.orderly (h : s.Reaches t) (hs : s.registry.Orderly) : t.registry.Orderly := by
  induction h with
  | refl => exact hs
  | tail _ hstep ih =>
    rcases hstep.registry_cases with hsame | ⟨arrival, r, reader, hid, hloads, rfl⟩
    · exact hsame ▸ ih
    · rw [registry_respond_of_loads hloads]
      exact ih.enter hid reader

/-- A run keeps the names of a reader. -/
theorem Reaches.namesOf_eq (h : s.Reaches t) (hid : s.registry.reader? id ≠ none) :
    t.registry.namesOf id = s.registry.namesOf id := by
  induction h with
  | refl => rfl
  | @tail u v hu hstep ih =>
    rcases hstep.registry_cases with hsame | ⟨arrival, r, reader, hnew, hloads, rfl⟩
    · rw [hsame, ih]
    · have hne : id ≠ arrival.id := by
        rintro rfl
        obtain ⟨found, hfound⟩ := Option.ne_none_iff_exists'.mp hid
        rw [Reaches.extends hu |>.reader _ _ hfound] at hnew
        cases hnew
      rw [registry_respond_of_loads hloads, Registry.namesOf_enter_of_ne hnew hne, ih]

/-- Every reader was loaded on the way. -/
theorem Reaches.exists_loading (h : s.Reaches t) (hs : s.registry.reader? id = none)
    (hreader : t.registry.reader? id = some reader) :
    ∃ u arrival r names, s.Loading u t arrival r reader names ∧ arrival.id = id := by
  induction h with
  | refl =>
    rw [hs] at hreader
    cases hreader
  | @tail u v hu hstep ih =>
    have hlater := Relation.ReflTransGen.single hstep
    have hold : u.registry.reader? id = some reader →
        ∃ w arrival r names, s.Loading w v arrival r reader names ∧ arrival.id = id := by
      intro hreader
      obtain ⟨w, arrival, r, names, hloading, hid⟩ := ih hreader
      exact ⟨w, arrival, r, names, { hloading with later := hloading.later.trans hlater }, hid⟩
    rcases hstep.registry_cases with hsame | ⟨arrival, r, new, hnew, hloads, rfl⟩
    · exact hold (hsame ▸ hreader)
    · rw [registry_respond_of_loads hloads] at hreader
      by_cases hid : id = arrival.id
      · subst hid
        rw [Registry.reader?_enter] at hreader
        obtain rfl := Option.some.inj hreader
        exact ⟨u, arrival, r, _, ⟨hu, hnew, hloads, by rw [respond_of_loads hloads], .refl⟩, rfl⟩
      · refine hold ?_
        rwa [Registry.enter, Registry.reader?_addSignals, Registry.reader?_addReader_of_ne hid]
          at hreader

/-! ### What a reader was told -/

/-- The response tells the names. -/
theorem eq_of_enteredJson_eq {path : String} {others : List String}
    (h : enteredJson arrival path names = enteredJson arrival path others) : names = others := by
  simp only [enteredJson, Json.object.injEq, List.cons.injEq, Prod.mk.injEq, Json.strings,
    Json.array.injEq, true_and, and_true] at h
  exact (List.map_injective_iff.mpr fun _ _ => Json.string.inj) h

namespace Loading

variable (h : s.Loading u t arrival r reader names)
include h

theorem names_eq : names = (u.registry.enter arrival.id reader).2 := by
  have htold := h.told
  rw [respond_of_loads h.loads] at htold
  exact (eq_of_enteredJson_eq (Content.json.inj (congrArg Response.content htold))).symm

theorem reader?_eq : t.registry.reader? arrival.id = some reader := by
  refine h.later.extends.reader _ _ ?_
  rw [registry_respond_of_loads h.loads]
  exact Registry.reader?_enter ..

/-- The names of a reader are those that it was told when it was loaded. -/
theorem perm_namesOf (hs : s.registry.Orderly) :
    (t.registry.namesOf arrival.id).Perm names := by
  have hfound : (u.respond arrival r).2.registry.reader? arrival.id ≠ none := by
    rw [registry_respond_of_loads h.loads, Registry.reader?_enter]
    exact Option.some_ne_none _
  rw [h.later.namesOf_eq hfound, registry_respond_of_loads h.loads, h.names_eq]
  exact (h.before.orderly hs).perm_namesOf_enter h.new reader

end Loading

/-- **The listing shows every reader once, with the names that it was told.**  In whatever state a
server is that started with an empty registry, and in whatever order its table gives its readers,
they are listed by ascending path.  The names of each are in ascending order without repetitions; no
name is listed twice, and together they are the names of all signals.  Every reader listed was
loaded on the way, and every reader loaded on the way is listed, with one name per vector of its
series: the names that the request was told which loaded it, perhaps in another order. -/
theorem listings_of_reaches (hs : s.registry = .empty) (ht : s.Reaches t) :
    (∀ later q, q.method = .get → Route.of? q.target = some .readers →
      t.respond later q = (.ofJson (.array (t.registry.listings.map fun l => .object
        [("id", .string l.id.text), ("path", .string l.path),
          ("signals_count", .nat l.names.length), ("headers", .strings l.names)])), t)
      ∧ t.respond later q = (t.readersIn t.registry.readers, t))
    ∧ ∀ order : List (Uuid × Reader), order.Perm t.registry.readers →
      t.readersIn order = .ofJson (.array ((t.registry.listingsIn order).map fun l => .object
        [("id", .string l.id.text), ("path", .string l.path),
          ("signals_count", .nat l.names.length), ("headers", .strings l.names)]))
      ∧ ((t.registry.listingsIn order).map fun l => (l.id, l.path)).Perm
        (t.registry.readers.map fun entry => (entry.1, entry.2.path))
      ∧ ((t.registry.listingsIn order).map (·.id)).Nodup
      ∧ (t.registry.listingsIn order).Pairwise (·.path ≤ ·.path)
      ∧ (∀ l ∈ t.registry.listingsIn order, l.names.Pairwise (· < ·))
      ∧ (t.registry.listingsIn order).Pairwise (fun l m => l.names.Disjoint m.names)
      ∧ ((t.registry.listingsIn order).flatMap (·.names)).Perm t.registry.names
      ∧ (∀ l ∈ t.registry.listingsIn order, ∃ u arrival r reader names,
        s.Loading u t arrival r reader names ∧ arrival.id = l.id)
      ∧ ∀ u arrival r reader names, s.Loading u t arrival r reader names →
        ∃ l ∈ t.registry.listingsIn order, l.id = arrival.id ∧ l.path = reader.path
          ∧ l.names.length = reader.series.vectors.length ∧ l.names.Perm names := by
  have horderly := ht.orderly (hs ▸ Registry.orderly_empty)
  refine ⟨?_, fun order horder => ⟨rfl, ?_, horderly.nodup_ids_listingsIn horder,
    t.registry.pairwise_listingsIn order, ?_, horderly.pairwise_disjoint_listingsIn horder,
    horderly.perm_flatMap_listingsIn horder, ?_, ?_⟩⟩
  · intro later q hmethod hroute
    rw [respond_of_route hroute (hmethod ▸ rfl) (hmethod ▸ nofun)]
    exact ⟨rfl, rfl⟩
  · refine ((Registry.perm_listingsIn horder).map _).trans (.of_eq ?_)
    rw [List.map_map]
    rfl
  · intro l hl
    obtain ⟨-, -, -, hnames⟩ := (Registry.mem_listingsIn horder).mp hl
    exact hnames ▸ horderly.pairwise_namesOf l.id
  · intro l hl
    obtain ⟨reader, hentry, -, -⟩ := (Registry.mem_listingsIn horder).mp hl
    have hreader : t.registry.reader? l.id = some reader := lookup_of_mem horderly.ids hentry
    obtain ⟨u, arrival, r, names, hloading, hid⟩ := ht.exists_loading (hs ▸ rfl) hreader
    exact ⟨u, arrival, r, reader, names, hloading, hid⟩
  · intro u arrival r reader names hloading
    have hperm := hloading.perm_namesOf (hs ▸ Registry.orderly_empty)
    refine ⟨⟨arrival.id, reader.path, t.registry.namesOf arrival.id⟩, ?_, rfl, rfl, ?_, hperm⟩
    · obtain ⟨front, back, hreaders, -⟩ := List.lookup_eq_some_iff.mp hloading.reader?_eq
      refine (Registry.mem_listingsIn horder).mpr ⟨reader, ?_, rfl, rfl⟩
      rw [hreaders]
      exact List.mem_append_right _ List.mem_cons_self
    · rw [hperm.length_eq, hloading.names_eq, Registry.length_enter]

/-- The rates are read a second time. -/
theorem loading_ratesServer : mergingServer.Loading ratesServer
    (ratesServer.respond secondArrival readingRates).2 secondArrival readingRates ratesReader
    ["FOPR_2", "FOPR_3"] := by
  have hloads : ratesServer.Loads readingRates ratesReader := by
    rw [ratesServer, respond_readingRates]
    exact ⟨reads_readingRates, loadSeries_ratesFile⟩
  refine ⟨reaches_ratesServer, new_secondArrival, hloads, ?_, .refl⟩
  have hnames : (ratesServer.registry.enter secondArrival.id ratesReader).2
      = ["FOPR_2", "FOPR_3"] := by
    rw [ratesServer, respond_readingRates]
    decide +kernel
  rw [respond_of_loads hloads, hnames]

/-- A file that was read twice is listed with the names that it was told the second time, also if the
readers come in the opposite order. -/
theorem listings_of_ratesTwice : mergingServer.registry = .empty
    ∧ ∃ t, mergingServer.Reaches t
      ∧ mergingServer.Loading ratesServer t secondArrival readingRates ratesReader
        ["FOPR_2", "FOPR_3"]
      ∧ (∃ l ∈ t.registry.listings, l.id = ⟨2⟩ ∧ l.path = "a.plt" ∧ l.names.length = 2
        ∧ l.names.Perm ["FOPR_2", "FOPR_3"])
      ∧ t.registry.readers.reverse.Perm t.registry.readers
      ∧ ∃ l ∈ t.registry.listingsIn t.registry.readers.reverse, l.id = ⟨2⟩ ∧ l.path = "a.plt"
        ∧ l.names.length = 2 ∧ l.names.Perm ["FOPR_2", "FOPR_3"] := by
  have ht : mergingServer.Reaches (ratesServer.respond secondArrival readingRates).2 :=
    reaches_ratesServer.tail (.request secondArrival readingRates new_secondArrival)
  obtain ⟨-, horders⟩ := listings_of_reaches rfl ht
  obtain ⟨-, -, -, -, -, -, -, -, hentered⟩ := horders _ (.refl _)
  obtain ⟨-, -, -, -, -, -, -, -, hreversed⟩ := horders _ (List.reverse_perm _)
  exact ⟨rfl, _, ht, loading_ratesServer, hentered _ _ _ _ _ loading_ratesServer,
    List.reverse_perm _, hreversed _ _ _ _ _ loading_ratesServer⟩

end Server

end ReservoirPlot
