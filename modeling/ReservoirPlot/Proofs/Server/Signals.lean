/-
ReservoirPlot/Proofs/Server/Signals.lean

What the signals of a file stream.  Each vector gets a name of its own, but a
signal keeps only the vector's keyword, and the series gives the first vector of
this keyword.  So a name streams its own vector if the keyword stands for one
variable, as the fixed keywords do, and otherwise may stream another vector of the
same series.  It never streams one of another file, however many were read before
or after.

Main result: `fetch_after_readFile`.
-/
import ReservoirPlot.Proofs.Plot.Decoding
import ReservoirPlot.Proofs.Series.Keywords
import ReservoirPlot.Proofs.Server.Run

namespace ReservoirPlot

/-! ### Files that load -/

namespace Plot

variable {path : String} {opened : Except AccessError Source} {o : SeriesOptions} {plot : Plot}
variable {series : Series}

/-- A file loads if it holds a plot that converts. -/
theorem loadSeries_eq_ok_iff : loadSeries path opened o = .ok (plot, series)
    ↔ ofOpened path opened = .ok plot ∧ plot.series o = .ok series := by
  rw [loadSeries]
  constructor
  · intro h
    obtain ⟨found, hfound, h⟩ := bind_eq_ok_iff.mp h
    obtain ⟨converted, hseries, h⟩ := bind_eq_ok_iff.mp h
    obtain ⟨rfl, rfl⟩ := Prod.mk.inj (Except.ok.inj h)
    rcases hresult : found.series o with c | result
    · rw [hresult] at hseries
      cases hseries
    · rw [hresult] at hseries
      rw [Except.ok.inj hseries]
      exact ⟨hfound, rfl⟩
  · rintro ⟨hplot, hseries⟩
    rw [hplot]
    show (plot.series o).mapError Failure.conflicting >>= _ = _
    rw [hseries]
    rfl

/-- A file that is not compressed holds the plot that its bytes hold. -/
theorem ofOpened_of_uncompressed (h : Compression.ofPath path = .uncompressed) (file : Source) :
    ofOpened path (.ok file) = (decode file).mapError .undecodable := by
  rw [ofOpened, Stream.ofOpened, h]
  rfl

/-- The file of a plot loads if its plot converts. -/
theorem loadSeries_of_file (f : PlotFile) (h : Compression.ofPath path = .uncompressed)
    (hopened : opened = .ok (.ofBytes f.bytes)) (hseries : f.plot.series o = .ok series) :
    loadSeries path opened o = .ok (f.plot, series) := by
  refine loadSeries_eq_ok_iff.mpr ⟨?_, hseries⟩
  rw [hopened, ofOpened_of_uncompressed h, f.decode_bytes]
  rfl

end Plot

/-! ### First vectors -/

namespace Series

variable {s : Series} {v : SummaryVector} {keyword : String}

theorem frames_send (h : s.vector? keyword = some v) :
    (s.send keyword none).frames = s.frames v := by
  rw [send, h]

end Series

/-! ### Names and frames -/

namespace Server

variable {s t : Server} {arrival : Arrival} {r : Request} {path name : String} {plot : Plot}
variable {series : Series}

/-- A name that leads to a keyword of a reader leads to its series. -/
theorem signal?_eq_some {id : Uuid} {reader : Reader} {keyword : String}
    (hsignal : s.registry.signal? name = some ⟨id, keyword⟩)
    (hreader : s.registry.reader? id = some reader) :
    s.signal? name = some (reader.series, keyword) := by
  rw [signal?, hsignal]
  show s.registry.reader? id >>= _ = _
  rw [hreader]
  rfl

/-- **A name streams the first vector that has its vector's keyword, of the series that it was
made for.**  When a file is read, the response has one name for each vector of its series, in
order.  At any later time, whatever was requested and whatever became of the file in between, a
name streams the frames of a vector of this series: its own, if the vector's keyword stands for no
other variable of the series, and so always if no keywords were configured. -/
theorem fetch_after_readFile (hreads : r.Reads path)
    (hload : Plot.loadSeries path (s.files.open? path) s.options = .ok (plot, series))
    (ht : (s.respond arrival r).2.Reaches t) :
    ∃ names, (s.respond arrival r).1 = .ofJson (enteredJson arrival path names)
      ∧ List.Forall₂ (fun name v => ∃ first, series.vector? v.keyword = some first
          ∧ (∀ q : Request, q.method = .get → q.upgrade = true →
            t.fetch q name = ⟨.switchingProtocols, .frames (series.frames first)⟩)
          ∧ (∀ later q, q.Fetches name →
            t.respond later q = (⟨.switchingProtocols, .frames (series.frames first)⟩, t))
          ∧ ((∀ w ∈ series.vectors, w.keyword = v.keyword → w.code = v.code) → first = v)
          ∧ (s.options.keywords = [] → first = v))
        names series.vectors := by
  have hseries := (Plot.loadSeries_eq_ok_iff.mp hload).2
  have hextends := ht.extends
  rw [respond_of_reads hreads, readFile_of_loads hload] at hextends ⊢
  refine ⟨_, rfl, ?_⟩
  -- Names and readers are the same later as right after the file was read.
  have hreader := hextends.reader _ _ (Registry.reader?_enter s.registry arrival.id _)
  have hnames := hextends.forall₂ (Registry.forall₂_addSignals
    (s.registry.addReader arrival.id ⟨path, plot, series⟩) arrival.id series.keywords)
  rw [Series.keywords, List.forall₂_map_right_iff] at hnames
  -- Pairs are needed here, to know that the vector is one of the series.
  refine List.forall₂_iff_zip.mpr ⟨hnames.length_eq, ?_⟩
  intro name v hpair
  have hv : v ∈ series.vectors := (List.of_mem_zip hpair).2
  have hkeywords : v.keyword ∈ series.keywords := List.mem_map_of_mem hv
  obtain ⟨first, hfirst⟩ := Series.exists_vector? hkeywords
  obtain ⟨hmem, hkeyword⟩ := Series.mem_of_vector? hfirst
  have hfetch : ∀ q : Request, q.method = .get → q.upgrade = true →
      t.fetch q name = ⟨.switchingProtocols, .frames (series.frames first)⟩ := by
    intro q hmethod hupgrade
    have hsignal := signal?_eq_some (List.forall₂_zip hnames hpair) hreader
    rw [fetch_of_signal? hmethod hupgrade hsignal, Series.frames_send hfirst]
  refine ⟨first, hfirst, hfetch, ?_, ?_, ?_⟩
  · intro later q hq
    rw [respond_of_fetches hq, hfetch q hq.method hq.upgrade]
  · intro hone
    exact Plot.eq_of_code_eq hseries hmem hv (hone first hmem hkeyword)
  · intro hfixed
    have hcode := Plot.code_eq_of_keyword_eq hseries hfixed hmem hv hkeyword
    exact Plot.eq_of_code_eq hseries hmem hv hcode

/-! ### Two variables under one keyword -/

/-- A manifest whose configuration gives the rate of water the keyword of the rate of oil. -/
def mergingManifest : Manifest where
  name := "Nexus Plot Reader"
  id := "nexus_plot_reader"
  version := "0.1.0"
  description := "d"
  mode := "offline"
  author := ""
  command := ["x"]
  enabled := true
  lastUpdated := ""
  gitPath := ""
  category := "reader"
  postUrl := ""
  webpage := ""
  fileFormats := ["plt", "gz"]
  askForm := false
  connection := ⟨⟨"127.0.0.1", 0⟩, ⟨"127.0.0.1", 8000⟩⟩
  configuration := .object [("keywords", .object [("QWP", .string "FOPR")])]

/-- The server that starts with this manifest beside a file with both rates. -/
def mergingServer : Server where
  manifest := mergingManifest
  options := ⟨"FIELD", "NETWORK", [("QWP", "FOPR")]⟩
  registry := .empty
  files := Directory.empty.put ["a.plt"] ratesFile.bytes

theorem start?_mergingManifest :
    start? mergingManifest mergingServer.files = some mergingServer := by
  rfl

/-- The rate of oil, and the rate of water under the same keyword. -/
def mergedSeries : Series where
  vectors := [⟨"FOPR", .padded 4 "QOP", "SM3/DAY", [⟨0, ⟨0x41480000⟩⟩]⟩,
    ⟨"FOPR", .padded 4 "QWP", "SM3/DAY", [⟨0, ⟨0x40A00000⟩⟩]⟩]
  timeAxis := [⟨1, .zero⟩]
  skipped := []

theorem series_ratesFile : ratesFile.plot.series mergingServer.options = .ok mergedSeries := by
  show ratesFile.plot.seriesWith "FIELD" "NETWORK" _ = _
  -- There is one timestep, so the samples are in order as they are.
  rw [Plot.seriesWith, Plot.selected_of_ascending (by decide +kernel)]
  decide +kernel

theorem loadSeries_ratesFile : Plot.loadSeries "a.plt" (mergingServer.files.open? "a.plt")
    mergingServer.options = .ok (ratesFile.plot, mergedSeries) :=
  Plot.loadSeries_of_file ratesFile rfl rfl series_ratesFile

/-- A request to read the file. -/
def readingRates : Request where
  method := .post
  target := "/read-file"
  contentType := some "application/json"
  body := "\x7b\"mode\":\"offline\",\"path\":\"a.plt\"\x7d"
  upgrade := false

theorem reads_readingRates : readingRates.Reads "a.plt" where
  method := rfl
  route := rfl
  body := ⟨"offline", by decide +kernel⟩

/-- A request for the second of its signals. -/
def fetchingSecond : Request where
  method := .get
  target := "/fetch/FOPR_1"
  contentType := none
  body := ""
  upgrade := true

theorem fetches_fetchingSecond : fetchingSecond.Fetches "FOPR_1" where
  method := rfl
  upgrade := rfl
  route := ⟨"FOPR_1", by decide +kernel, by decide +kernel⟩

/-- What the first reader gets. -/
def firstArrival : Arrival := ⟨⟨1⟩, "2026-01-01T00:00:00+00:00"⟩

/-- The first reader. -/
def ratesReader : Reader := ⟨"a.plt", ratesFile.plot, mergedSeries⟩

theorem respond_readingRates : mergingServer.respond firstArrival readingRates
    = (.ofJson (enteredJson firstArrival "a.plt" ["FOPR", "FOPR_1"]),
      { mergingServer with registry := (Registry.empty.enter ⟨1⟩ ratesReader).1 }) := by
  have hnames : (Registry.empty.enter ⟨1⟩ ratesReader).2 = ["FOPR", "FOPR_1"] := by
    rfl
  rw [respond_of_reads reads_readingRates, readFile_of_loads loadSeries_ratesFile, ← hnames]
  rfl

/-- The server that has read the rates. -/
def ratesServer : Server := (mergingServer.respond firstArrival readingRates).2

/-- What the second reader gets. -/
def secondArrival : Arrival := ⟨⟨2⟩, "2026-01-02T00:00:00+00:00"⟩

theorem reaches_ratesServer : mergingServer.Reaches ratesServer := by
  rw [ratesServer]
  exact .single (.request firstArrival readingRates rfl)

theorem new_secondArrival : ratesServer.registry.reader? secondArrival.id = none := by
  rw [ratesServer, respond_readingRates]
  rfl

/-- The names of the two rates go on streaming when the file is gone. -/
theorem fetch_after_readingRates :
    readingRates.Reads "a.plt"
      ∧ Plot.loadSeries "a.plt" (mergingServer.files.open? "a.plt") mergingServer.options
        = .ok (ratesFile.plot, mergedSeries)
      ∧ ∃ t, (mergingServer.respond firstArrival readingRates).2.Reaches t ∧ t.files = .empty
        ∧ ∃ names, (mergingServer.respond firstArrival readingRates).1
            = .ofJson (enteredJson firstArrival "a.plt" names)
          ∧ List.Forall₂ (fun name v => ∃ first, mergedSeries.vector? v.keyword = some first
              ∧ (∀ q : Request, q.method = .get → q.upgrade = true →
                t.fetch q name = ⟨.switchingProtocols, .frames (mergedSeries.frames first)⟩)
              ∧ (∀ later q, q.Fetches name → t.respond later q
                = (⟨.switchingProtocols, .frames (mergedSeries.frames first)⟩, t))
              ∧ ((∀ w ∈ mergedSeries.vectors, w.keyword = v.keyword → w.code = v.code)
                → first = v)
              ∧ (mergingServer.options.keywords = [] → first = v))
            names mergedSeries.vectors := by
  have ht : (mergingServer.respond firstArrival readingRates).2.Reaches
      { (mergingServer.respond firstArrival readingRates).2 with files := .empty } :=
    .single (.files .empty)
  exact ⟨reads_readingRates, loadSeries_ratesFile, _, ht, rfl,
    fetch_after_readFile reads_readingRates loadSeries_ratesFile ht⟩

/-- The second name was made for the rate of water and streams the rate of oil. -/
theorem frames_of_secondName :
    start? mergingManifest mergingServer.files = some mergingServer
      ∧ readingRates.Reads "a.plt"
      ∧ Plot.loadSeries "a.plt" (mergingServer.files.open? "a.plt") mergingServer.options
        = .ok (ratesFile.plot, mergedSeries)
      ∧ (mergingServer.respond firstArrival readingRates).1
        = .ofJson (enteredJson firstArrival "a.plt" ["FOPR", "FOPR_1"])
      ∧ fetchingSecond.Fetches "FOPR_1"
      ∧ ∃ oil water, mergedSeries.vectors = [oil, water]
        ∧ ((mergingServer.respond firstArrival readingRates).2.respond firstArrival
            fetchingSecond).1 = ⟨.switchingProtocols, .frames (mergedSeries.frames oil)⟩
        ∧ mergedSeries.frames oil ≠ mergedSeries.frames water := by
  refine ⟨start?_mergingManifest, reads_readingRates, loadSeries_ratesFile, ?_,
    fetches_fetchingSecond, _, _, rfl, ?_, ?_⟩
  · rw [respond_readingRates]
  · have hsignal : (Registry.empty.enter ⟨1⟩ ratesReader).1.signal? "FOPR_1"
        = some ⟨⟨1⟩, "FOPR"⟩ := by
      decide +kernel
    rw [respond_readingRates, respond_of_fetches fetches_fetchingSecond,
      fetch_of_signal? rfl rfl (signal?_eq_some hsignal (Registry.reader?_enter ..))]
    rfl
  · decide +kernel

end Server

end ReservoirPlot
