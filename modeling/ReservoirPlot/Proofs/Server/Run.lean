/-
ReservoirPlot/Proofs/Server/Run.lean

A server and the requests that come to it.  There are two requests that may change
a server, and for each of them something that has to be so:

    Loads     it asks for a file that can be read and converted
    Writes    it asks to export a reader that is there, with a start date that is
              a day, to a path at which a file can be created (`Directory.Creates`)

The first enters a reader with its signals (`respond_of_loads`), the second writes
one file (`respond_of_writes`), and whatever else is asked leaves the server as it
is (`snd_respond_eq_self`).

`Reaches` is any run: requests in any order, between which the files may change by
themselves.  A run only adds to the registry, as long as no reader gets the
identifier of another one (`Reaches.extends`).
-/
import Mathlib.Logic.Relation
import ReservoirPlot.Proofs.Files.Writing
import ReservoirPlot.Proofs.Server.Registry
import ReservoirPlot.Server.Basic

namespace ReservoirPlot

/-! ### Requests -/

/-- The request asks to read the file at a path. -/
structure Request.Reads (r : Request) (path : String) : Prop where
  method : r.method = .post
  route : Route.of? r.target = some .readFile
  body : ∃ mode, Server.textsOf "mode" "path" r = .ok (mode, path)

/-- The request asks for the frames of the signal with a name. -/
structure Request.Fetches (r : Request) (name : String) : Prop where
  method : r.method = .get
  upgrade : r.upgrade = true
  route : ∃ argument, Route.of? r.target = some (.fetch argument)
    ∧ PercentEncoding.decode? argument = some name

/-- The request asks to export the reader with an identifier to a path, under a name. -/
structure Request.Exports (r : Request) (id : Uuid) (name path : String) : Prop where
  method : r.method = .post
  route : ∃ argument, Route.of? r.target = some (.exportSummary argument)
    ∧ Uuid.ofArgument? argument = some id
  body : Server.textsOf "case" "path" r = .ok (name, path)

namespace Server

variable {s t : Server} {arrival : Arrival} {r : Request} {route : Route} {reader : Reader}
variable {id : Uuid} {name path : String} {target : List String} {case : SummaryCase}

/-- A route that takes the method of a request decides what becomes of the server. -/
theorem snd_respond (hroute : Route.of? r.target = some route) (hallows : route.allows r.method) :
    (s.respond arrival r).2 = (s.handle arrival r route).2 := by
  rw [respond, hroute]
  show (if !route.allows r.method then _ else _ : Response × Server).2 = _
  rw [hallows]
  rfl

/-- A route that takes the method of a request responds to it, in full unless only the head is
asked for. -/
theorem respond_of_route (hroute : Route.of? r.target = some route)
    (hallows : route.allows r.method) (hhead : r.method ≠ .head) :
    s.respond arrival r = s.handle arrival r route := by
  simp only [respond, hroute, hallows, hhead, Bool.not_true, Bool.false_eq_true, if_false]

theorem respond_of_reads (h : r.Reads path) :
    s.respond arrival r = s.readFile arrival path := by
  obtain ⟨mode, hbody⟩ := h.body
  rw [respond_of_route h.route (h.method ▸ rfl) (h.method ▸ nofun), handle, hbody]

/-- A file that can be read and converted is entered, and the response has the names. -/
theorem readFile_of_loads {plot : Plot} {series : Series}
    (h : Plot.loadSeries path (s.files.open? path) s.options = .ok (plot, series)) :
    s.readFile arrival path
      = (.ofJson (enteredJson arrival path
          (s.registry.enter arrival.id ⟨path, plot, series⟩).2),
        { s with registry := (s.registry.enter arrival.id ⟨path, plot, series⟩).1 }) := by
  rw [readFile, h]

theorem respond_of_fetches (h : r.Fetches name) : s.respond arrival r = (s.fetch r name, s) := by
  obtain ⟨argument, hroute, hname⟩ := h.route
  rw [respond_of_route hroute (h.method ▸ rfl) (h.method ▸ nofun), handle, hname]

theorem respond_of_exports (h : r.Exports id name path) :
    s.respond arrival r = s.exportSummary id name path := by
  obtain ⟨argument, hroute, hid⟩ := h.route
  rw [respond_of_route hroute (h.method ▸ rfl) (h.method ▸ nofun), handle, hid, h.body]

/-- A connection that is to become a socket gets the frames of a signal that there is. -/
theorem fetch_of_signal? {series : Series} {keyword : String} (hmethod : r.method = .get)
    (hupgrade : r.upgrade = true) (hsignal : s.signal? name = some (series, keyword)) :
    s.fetch r name = ⟨.switchingProtocols, .frames (series.send keyword none).frames⟩ := by
  rw [fetch, if_neg (not_not_intro hmethod), hupgrade, hsignal]
  rfl

/-! ### Requests that change something -/

/-- The request asks for a file that can be read and converted, which makes the reader. -/
structure Loads (s : Server) (r : Request) (reader : Reader) : Prop where
  reads : r.Reads reader.path
  loads : Plot.loadSeries reader.path (s.files.open? reader.path) s.options
    = .ok (reader.plot, reader.series)

/-- The request asks to export a reader to a path at which a file can be created, and the reader
gives a summary. -/
structure Writes (s : Server) (r : Request) (path : String) (target : List String)
    (case : SummaryCase) : Prop where
  exports : ∃ id name reader, r.Exports id name path ∧ s.registry.reader? id = some reader
    ∧ SummaryCase.of name reader.plot.header reader.series = .ok case
  target : s.files.Creates path target

theorem respond_of_loads (h : s.Loads r reader) :
    s.respond arrival r
      = (.ofJson (enteredJson arrival reader.path (s.registry.enter arrival.id reader).2),
        { s with registry := (s.registry.enter arrival.id reader).1 }) := by
  rw [respond_of_reads h.reads, readFile_of_loads h.loads]

/-- An export succeeds if the reader gives a summary and a file can be created. -/
theorem exportTo_eq_ok_iff {files : Directory} : s.exportTo reader name path = .ok files
    ↔ ∃ case target, SummaryCase.of name reader.plot.header reader.series = .ok case
      ∧ s.files.Creates path target
      ∧ files = s.files.set target (Utf8.encode case.text) := by
  simp only [← Directory.target?_eq_some_iff]
  rcases hcase : SummaryCase.of name reader.plot.header reader.series with e | case
  · simp [exportTo, hcase, Except.mapError, bind, Except.bind]
  · rcases htarget : s.files.target? path with - | target
    · simp [exportTo, hcase, htarget, Directory.write?, Except.mapError, bind, Except.bind]
    · simp [exportTo, hcase, htarget, Directory.write?, Except.mapError, bind, Except.bind, pure,
        Except.pure, eq_comm]

theorem exportSummary_of_ok {files : Directory} (hreader : s.registry.reader? id = some reader)
    (hfiles : s.exportTo reader name path = .ok files) :
    s.exportSummary id name path = (.bare .ok, { s with files }) := by
  simp only [exportSummary, hreader, hfiles]

theorem respond_of_writes (h : s.Writes r path target case) :
    s.respond arrival r
      = (.bare .ok, { s with files := s.files.set target (Utf8.encode case.text) }) := by
  obtain ⟨id, name, reader, hexports, hreader, hcase⟩ := h.exports
  have hfiles := exportTo_eq_ok_iff.mpr ⟨case, target, hcase, h.target, rfl⟩
  rw [respond_of_exports hexports, exportSummary_of_ok hreader hfiles]

/-! ### Requests that change nothing -/

/-- Only the two routes that take a body can change a server. -/
theorem snd_handle_of_bodiless (h : route.takesBody = false) :
    (s.handle arrival r route).2 = s := by
  cases route with
  | readFile => cases h
  | exportSummary argument => cases h
  | fetch argument =>
    rw [handle]
    split <;> rfl
  | readerHeaders argument =>
    rw [handle]
    split <;> rfl
  | _ => rfl

/-- A body comes by one method only. -/
theorem method_of_takesBody (hbody : route.takesBody) (hallows : route.allows r.method) :
    r.method = .post := by
  rcases hmethod : r.method
  · simp [hmethod, Route.allows, hbody] at hallows
  · simp [hmethod, Route.allows, hbody] at hallows
  · rfl
  · simp [hmethod, Route.allows] at hallows

/-- A file that cannot be read or converted changes nothing. -/
theorem snd_readFile_eq_self (h : ∀ plot series,
    Plot.loadSeries path (s.files.open? path) s.options ≠ .ok (plot, series)) :
    (s.readFile arrival path).2 = s := by
  rcases hload : Plot.loadSeries path (s.files.open? path) s.options
    with failure | ⟨plot, series⟩
  · rw [readFile, hload]
  · exact absurd hload (h plot series)

/-- An export that does not come to a file changes nothing. -/
theorem snd_exportSummary_eq_self (h : ∀ reader files, s.registry.reader? id = some reader →
    s.exportTo reader name path ≠ .ok files) : (s.exportSummary id name path).2 = s := by
  rw [exportSummary]
  split
  · rfl
  · next reader hreader =>
    split
    · next files hfiles => exact absurd hfiles (h reader files hreader)
    · rfl

/-- A request that neither loads nor writes changes nothing. -/
theorem snd_respond_eq_self (hloads : ∀ reader, ¬ s.Loads r reader)
    (hwrites : ∀ path target case, ¬ s.Writes r path target case) :
    (s.respond arrival r).2 = s := by
  rcases hroute : Route.of? r.target with - | route
  · rw [respond, hroute]
  · by_cases hallows : route.allows r.method
    · rw [snd_respond hroute hallows]
      by_cases hbody : route.takesBody
      · have hmethod := method_of_takesBody hbody hallows
        cases route with
        | readFile =>
          rw [handle]
          split
          · next mode path htexts =>
            apply snd_readFile_eq_self
            intro plot series hload
            exact hloads ⟨path, plot, series⟩ ⟨⟨hmethod, hroute, mode, htexts⟩, hload⟩
          · rfl
        | exportSummary argument =>
          rw [handle]
          split
          · rfl
          · next id hid =>
            split
            · next name path htexts =>
              apply snd_exportSummary_eq_self
              intro reader files hreader hfiles
              obtain ⟨case, target, hcase, htarget, -⟩ := exportTo_eq_ok_iff.mp hfiles
              have hexports : r.Exports id name path :=
                ⟨hmethod, ⟨argument, hroute, hid⟩, htexts⟩
              exact hwrites path target case ⟨⟨id, name, reader, hexports, hreader, hcase⟩, htarget⟩
            · rfl
        | _ => cases hbody
      · exact snd_handle_of_bodiless (eq_false_of_ne_true hbody)
    · rw [respond, hroute]
      show (if !route.allows r.method then _ else _ : Response × Server).2 = _
      rw [eq_false_of_ne_true hallows]
      rfl

/-- What one request does. -/
theorem respond_cases (s : Server) (arrival : Arrival) (r : Request) :
    (∃ reader, s.Loads r reader) ∨ (∃ path target case, s.Writes r path target case)
      ∨ (s.respond arrival r).2 = s := by
  by_cases hloads : ∃ reader, s.Loads r reader
  · exact .inl hloads
  · by_cases hwrites : ∃ path target case, s.Writes r path target case
    · exact .inr (.inl hwrites)
    · refine .inr (.inr (snd_respond_eq_self ?_ ?_))
      · exact fun reader h => hloads ⟨reader, h⟩
      · exact fun path target case h => hwrites ⟨path, target, case, h⟩

/-! ### Any run -/

/-- What may happen to a server: a request, whose identifier is that of no reader, or a change of
the files that is none of the server's. -/
inductive Step (s : Server) : Server → Prop
  | request (arrival : Arrival) (r : Request) (hid : s.registry.reader? arrival.id = none) :
    Step s (s.respond arrival r).2
  | files (files : Directory) : Step s { s with files }

/-- The servers that may come of a server. -/
def Reaches : Server → Server → Prop :=
  Relation.ReflTransGen Step

theorem registry_respond_of_loads (h : s.Loads r reader) :
    (s.respond arrival r).2.registry = (s.registry.enter arrival.id reader).1 := by
  rw [respond_of_loads h]

/-- What a step does to the registry: nothing, or a reader is entered. -/
theorem Step.registry_cases (h : s.Step t) : t.registry = s.registry
    ∨ ∃ arrival r reader, s.registry.reader? arrival.id = none ∧ s.Loads r reader
      ∧ t = (s.respond arrival r).2 := by
  rcases h with ⟨arrival, r, hid⟩ | files
  · rcases s.respond_cases arrival r with ⟨reader, hloads⟩ | ⟨path, target, case, hwrites⟩ | hself
    · exact .inr ⟨arrival, r, reader, hid, hloads, rfl⟩
    · left
      rw [respond_of_writes hwrites]
    · left
      rw [hself]
  · exact .inl rfl

theorem Step.extends (h : s.Step t) : s.registry.Extends t.registry := by
  rcases h.registry_cases with hsame | ⟨arrival, r, reader, hid, hloads, rfl⟩
  · exact hsame ▸ .refl _
  · rw [registry_respond_of_loads hloads]
    exact Registry.extends_enter hid reader

/-- No reader and no signal is ever removed or changed. -/
theorem Reaches.extends (h : s.Reaches t) : s.registry.Extends t.registry := by
  induction h with
  | refl => exact .refl _
  | tail _ hstep ih => exact ih.trans hstep.extends

end Server

end ReservoirPlot
