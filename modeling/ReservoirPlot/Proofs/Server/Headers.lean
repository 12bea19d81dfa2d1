/-
ReservoirPlot/Proofs/Server/Headers.lean

What a single reader answers when it is asked for its headers.  The listing of all
readers shows the names of signals, and so does the response to the request that
loaded the reader; but asked for by its identifier, a reader answers the keywords
of its series.  These are its names as long as no keyword is taken when it is
loaded, and no keyword is there twice (`perm_freeNames_iff`).  A keyword that was
taken is the name of a signal of another reader, and streams this one's data.

Main result: `headers_of_reaches`.
-/
import ReservoirPlot.Proofs.Server.Changes
import ReservoirPlot.Proofs.Server.Listings

namespace ReservoirPlot.Server

variable {s t u : Server} {arrival : Arrival} {r : Request} {reader : Reader} {id : Uuid}
variable {names : List String} {keyword : String} {owner : Signal}

/-- A reader that is there answers the keywords of its series. -/
theorem respond_of_readerHeaders {later : Arrival} {q : Request} {argument : String}
    (hmethod : q.method = .get) (hroute : Route.of? q.target = some (.readerHeaders argument))
    (hid : Uuid.ofArgument? argument = some id) (hreader : t.registry.reader? id = some reader) :
    t.respond later q = (.ofJson (.object
      [("id", .string id.text), ("headers", .strings reader.series.keywords)]), t) := by
  rw [respond_of_route hroute (hmethod ▸ rfl) (hmethod ▸ nofun), handle, hid]
  show (t.readerHeaders id, t) = _
  rw [readerHeaders, hreader]

namespace Loading

variable (h : s.Loading u t arrival r reader names)
include h

theorem names_eq_freeNames : names = freeNames u.registry.names reader.series.keywords :=
  h.names_eq

/-- A keyword is the name of a signal, of this reader if it was not taken when the reader was
loaded, and otherwise of the reader that it was taken for. -/
theorem exists_owner (hs : s.registry.Orderly) (hkeyword : keyword ∈ reader.series.keywords) :
    ∃ owner, t.registry.signal? keyword = some owner
      ∧ (owner.reader = arrival.id ↔ u.registry.signal? keyword = none) := by
  have hextends := h.later.extends
  rw [registry_respond_of_loads h.loads] at hextends
  rcases hbefore : u.registry.signal? keyword with - | owner
  · have hname : keyword ∈ names := by
      rw [h.names_eq_freeNames]
      exact mem_freeNames_of_not_mem hkeyword (Registry.signal?_eq_none_iff.mp hbefore)
    rw [h.names_eq] at hname
    obtain ⟨found, hfound⟩ := Registry.exists_signal (Registry.forall₂_addSignals ..) hname
    exact ⟨_, hextends.signal _ _ hfound, iff_of_true rfl rfl⟩
  · have hold := (Registry.extends_enter h.new reader).signal _ _ hbefore
    refine ⟨owner, hextends.signal _ _ hold, iff_of_false ?_ (Option.some_ne_none _)⟩
    -- Its reader was there before this one, whose identifier was new.
    intro howner
    obtain ⟨found, hfound⟩ := (h.before.orderly hs).exists_reader hbefore
    rw [howner, h.new] at hfound
    cases hfound

/-- The keywords are the names that the reader was told exactly if no keyword was taken and no
keyword is there twice. -/
theorem perm_keywords_iff : reader.series.keywords.Perm names
    ↔ reader.series.keywords.Nodup
      ∧ ∀ keyword ∈ reader.series.keywords, u.registry.signal? keyword = none := by
  rw [h.names_eq_freeNames, perm_freeNames_iff]
  simp only [Registry.signal?_eq_none_iff]

end Loading

/-- A signal that leads to a reader streams its data. -/
theorem fetch_of_owner {found : Reader} {q : Request} (hmethod : q.method = .get)
    (hupgrade : q.upgrade = true) (hsignal : t.registry.signal? keyword = some owner)
    (hfound : t.registry.reader? owner.reader = some found) :
    t.fetch q keyword
      = ⟨.switchingProtocols, .frames (found.series.send owner.keyword none).frames⟩ :=
  fetch_of_signal? hmethod hupgrade (signal?_eq_some hsignal hfound)

/-- **A reader answers its keywords, and these are its names exactly as long as none of them was
taken.**  In whatever state a server is that started with an empty registry, a reader that is there
answers the keywords of its series.  It was loaded on the way, and was told as many names.  The
keywords are these names, up to their order, if no keyword was the name of a signal at that time and
no keyword is there twice, and not otherwise.  Each keyword is the name of a signal, but of this
reader only if it was not taken; a keyword that was taken streams the data of another reader. -/
theorem headers_of_reaches (hs : s.registry = .empty) (ht : s.Reaches t)
    (hreader : t.registry.reader? id = some reader) :
    (∀ later q argument, q.method = .get → Route.of? q.target = some (.readerHeaders argument) →
      Uuid.ofArgument? argument = some id → t.respond later q = (.ofJson (.object
        [("id", .string id.text), ("headers", .strings reader.series.keywords)]), t))
    ∧ ∃ u arrival r names, s.Loading u t arrival r reader names ∧ arrival.id = id
      ∧ reader.series.keywords.length = names.length
      ∧ (reader.series.keywords.Perm names ↔ reader.series.keywords.Nodup
        ∧ ∀ keyword ∈ reader.series.keywords, u.registry.signal? keyword = none)
      ∧ ∀ keyword ∈ reader.series.keywords, ∃ owner found,
        t.registry.signal? keyword = some owner ∧ t.registry.reader? owner.reader = some found
          ∧ (owner.reader = id ↔ u.registry.signal? keyword = none)
          ∧ ∀ q : Request, q.method = .get → q.upgrade = true → t.fetch q keyword
            = ⟨.switchingProtocols, .frames (found.series.send owner.keyword none).frames⟩ := by
  have hempty : s.registry.Orderly := hs ▸ Registry.orderly_empty
  refine ⟨fun _ _ _ hmethod hroute hid => respond_of_readerHeaders hmethod hroute hid hreader, ?_⟩
  obtain ⟨u, arrival, r, names, hloading, rfl⟩ := ht.exists_loading (hs ▸ rfl) hreader
  refine ⟨u, arrival, r, names, hloading, rfl, ?_, hloading.perm_keywords_iff, ?_⟩
  · rw [hloading.names_eq_freeNames, length_freeNames]
  · intro keyword hkeyword
    obtain ⟨owner, hsignal, howner⟩ := hloading.exists_owner hempty hkeyword
    obtain ⟨found, hfound⟩ := (ht.orderly hempty).exists_reader hsignal
    exact ⟨owner, found, hsignal, hfound, howner,
      fun q hmethod hupgrade => fetch_of_owner hmethod hupgrade hsignal hfound⟩

/-! ### Two files with the same keywords -/

/-- The rates of oil and water of another field at one timestep. -/
def otherRatesFile : PlotFile :=
  { ratesFile with
    blocks := [⟨.padded 8 "FIELD", [.padded 4 "QOP", .padded 4 "QWP"], .padded 8 "", ⟨0x3F800000⟩,
      .zero, ⟨0x3F800000⟩, ⟨0x3F800000⟩, .zero,
      [⟨.padded 8 "", .padded 8 "NETWORK", .padded 64 "", [⟨0x41A00000⟩, ⟨0x40200000⟩], rfl⟩],
      .padded 8 "", padded_field_ne_stopTag, by decide, by decide⟩] }

/-- A manifest without a configuration. -/
def plainManifest : Manifest := { mergingManifest with configuration := .object [] }

/-- The server that starts with this manifest beside both files. -/
def twoFilesServer : Server where
  manifest := plainManifest
  options := ⟨"FIELD", "NETWORK", []⟩
  registry := .empty
  files := (Directory.empty.put ["a.plt"] ratesFile.bytes).put ["b.plt"] otherRatesFile.bytes

theorem start?_plainManifest :
    start? plainManifest twoFilesServer.files = some twoFilesServer := by
  rfl

/-- A rate of oil and a rate of water. -/
def ratesSeries (oil water : UInt32) : Series where
  vectors := [⟨"FOPR", .padded 4 "QOP", "SM3/DAY", [⟨0, ⟨oil⟩⟩]⟩,
    ⟨"FWPR", .padded 4 "QWP", "SM3/DAY", [⟨0, ⟨water⟩⟩]⟩]
  timeAxis := [⟨1, .zero⟩]
  skipped := []

/-- The reader of the first file. -/
def ownReader : Reader := ⟨"a.plt", ratesFile.plot, ratesSeries 0x41480000 0x40A00000⟩

/-- The reader of the second file. -/
def otherReader : Reader := ⟨"b.plt", otherRatesFile.plot, ratesSeries 0x41A00000 0x40200000⟩

theorem loads_readingRates : twoFilesServer.Loads readingRates ownReader where
  reads := reads_readingRates
  loads := by
    refine Plot.loadSeries_of_file ratesFile rfl rfl ?_
    show ratesFile.plot.seriesWith "FIELD" "NETWORK" _ = _
    rw [Plot.seriesWith, Plot.selected_of_ascending (by decide +kernel)]
    decide +kernel

/-- A request to read the second file. -/
def readingOther : Request :=
  { readingRates with body := "\x7b\"mode\":\"offline\",\"path\":\"b.plt\"\x7d" }

/-- The server that has read the first file. -/
def ownServer : Server := (twoFilesServer.respond firstArrival readingRates).2

/-- The server that has read both files. -/
def bothServer : Server := (ownServer.respond secondArrival readingOther).2

theorem ownServer_eq : ownServer
    = { twoFilesServer with registry := (Registry.empty.enter ⟨1⟩ ownReader).1 } := by
  rw [ownServer, respond_of_loads loads_readingRates]
  rfl

theorem loads_readingOther : ownServer.Loads readingOther otherReader where
  reads := ⟨rfl, rfl, "offline", by decide +kernel⟩
  loads := by
    rw [ownServer_eq]
    refine Plot.loadSeries_of_file otherRatesFile rfl rfl ?_
    show otherRatesFile.plot.seriesWith "FIELD" "NETWORK" _ = _
    rw [Plot.seriesWith, Plot.selected_of_ascending (by decide +kernel)]
    decide +kernel

theorem bothServer_eq : bothServer = { twoFilesServer with
    registry := ((Registry.empty.enter ⟨1⟩ ownReader).1.enter ⟨2⟩ otherReader).1 } := by
  rw [bothServer, respond_of_loads loads_readingOther, ownServer_eq]
  rfl

theorem loading_readingOther : twoFilesServer.Loading ownServer bothServer secondArrival
    readingOther otherReader ["FOPR_1", "FWPR_1"] where
  before := by
    rw [ownServer]
    exact .single (.request firstArrival readingRates rfl)
  new := by
    rw [ownServer_eq]
    rfl
  loads := loads_readingOther
  told := by
    have hnames : (ownServer.registry.enter secondArrival.id otherReader).2
        = ["FOPR_1", "FWPR_1"] := by
      rw [ownServer_eq]
      rfl
    rw [respond_of_loads loads_readingOther, hnames]
  later := .refl

/-- A request for the headers of the second reader. -/
def askingOther : Request where
  method := .get
  target := "/readers/00000000-0000-0000-0000-000000000002/headers"
  contentType := none
  body := ""
  upgrade := false

theorem reader?_bothServer : bothServer.registry.reader? ⟨2⟩ = some otherReader :=
  loading_readingOther.reader?_eq

theorem respond_askingOther (later : Arrival) : bothServer.respond later askingOther
    = (.ofJson (.object [("id", .string (Uuid.text ⟨2⟩)), ("headers", .strings ["FOPR", "FWPR"])]),
      bothServer) := by
  have hroute : Route.of? askingOther.target
      = some (.readerHeaders "00000000-0000-0000-0000-000000000002") := rfl
  rw [respond_of_readerHeaders rfl hroute (by decide +kernel) reader?_bothServer]
  rfl

/-- The second reader answers two keywords, and has a signal of another name for each. -/
theorem headers_of_bothServer : twoFilesServer.registry = .empty
    ∧ twoFilesServer.Reaches bothServer
    ∧ bothServer.registry.reader? ⟨2⟩ = some otherReader
    ∧ ∃ u arrival r names, twoFilesServer.Loading u bothServer arrival r otherReader names
      ∧ otherReader.series.keywords.length = names.length
      ∧ ∃ owner found, bothServer.registry.signal? "FWPR" = some owner
        ∧ bothServer.registry.reader? owner.reader = some found
        ∧ (owner.reader = ⟨2⟩ ↔ u.registry.signal? "FWPR" = none) := by
  have ht : twoFilesServer.Reaches bothServer :=
    loading_readingOther.before.tail (.request _ _ loading_readingOther.new)
  obtain ⟨-, u, arrival, r, names, hloading, -, hlength, -, howners⟩ :=
    headers_of_reaches rfl ht reader?_bothServer
  obtain ⟨owner, found, hsignal, hfound, howner, -⟩ := howners "FWPR" (by decide)
  exact ⟨rfl, ht, reader?_bothServer, u, arrival, r, names, hloading, hlength, owner, found,
    hsignal, hfound, howner⟩

/-- The second reader was told two names, answers two others, and these stream the first file. -/
theorem headers_of_otherReader :
    start? plainManifest twoFilesServer.files = some twoFilesServer
      ∧ twoFilesServer.Loading ownServer bothServer secondArrival readingOther otherReader
        ["FOPR_1", "FWPR_1"]
      ∧ (∀ later, bothServer.respond later askingOther = (.ofJson (.object
        [("id", .string secondArrival.id.text), ("headers", .strings ["FOPR", "FWPR"])]),
        bothServer))
      ∧ ¬ ["FOPR", "FWPR"].Perm ["FOPR_1", "FWPR_1"]
      ∧ (∀ q : Request, q.method = .get → q.upgrade = true → bothServer.fetch q "FOPR"
        = ⟨.switchingProtocols, .frames (ownReader.series.send "FOPR" none).frames⟩)
      ∧ (ownReader.series.send "FOPR" none).frames
        ≠ (otherReader.series.send "FOPR" none).frames := by
  refine ⟨start?_plainManifest, loading_readingOther, respond_askingOther, by decide, ?_,
    by decide +kernel⟩
  intro q hmethod hupgrade
  have hsignal : bothServer.registry.signal? "FOPR" = some ⟨⟨1⟩, "FOPR"⟩ := by
    rw [bothServer_eq]
    decide +kernel
  have hfound : bothServer.registry.reader? ⟨1⟩ = some ownReader := by
    rw [bothServer_eq]
    decide +kernel
  exact fetch_of_owner hmethod hupgrade hsignal hfound

end ReservoirPlot.Server
