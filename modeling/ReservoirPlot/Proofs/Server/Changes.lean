/-
ReservoirPlot/Proofs/Server/Changes.lean

What a request changes, and what it leaves as it is.  A server has a registry and
files; a request that loads a file adds to the one, and a request that writes a
summary replaces or adds one file among the others.  All other requests, among
them everything that fails on the way to these two, leave both as they are.

What a signal streams rests on the registry alone.  Nothing in it is ever
replaced, so a signal goes on streaming the same frames whatever is requested
later and whatever becomes of the files (`Reaches.fetch_eq`).

Main result: `changes_of_respond`.
-/
import ReservoirPlot.Proofs.Files.Writing
import ReservoirPlot.Proofs.Server.Signals
import ReservoirPlot.Proofs.Summary.Text

namespace ReservoirPlot.Server

variable {s t : Server} {arrival : Arrival} {r : Request} {reader : Reader} {id : Uuid}
variable {name path : String} {target : List String} {case : SummaryCase}

/-! ### What is left as it is -/

theorem registry_respond_of_not_loads (h : ∀ reader, ¬ s.Loads r reader) :
    (s.respond arrival r).2.registry = s.registry := by
  rcases s.respond_cases arrival r with ⟨reader, hloads⟩ | ⟨path, target, case, hwrites⟩ | hself
  · exact absurd hloads (h reader)
  · rw [respond_of_writes hwrites]
  · rw [hself]

theorem files_respond_of_not_writes (h : ∀ path target case, ¬ s.Writes r path target case) :
    (s.respond arrival r).2.files = s.files := by
  rcases s.respond_cases arrival r with ⟨reader, hloads⟩ | ⟨path, target, case, hwrites⟩ | hself
  · rw [respond_of_loads hloads]
  · exact absurd hwrites (h path target case)
  · rw [hself]

/-- A request that does not turn out well changes nothing. -/
theorem snd_respond_of_status_ne_ok (h : (s.respond arrival r).1.status ≠ .ok) :
    (s.respond arrival r).2 = s := by
  rcases s.respond_cases arrival r with ⟨reader, hloads⟩ | ⟨path, target, case, hwrites⟩ | hself
  · rw [respond_of_loads hloads] at h
    exact absurd rfl h
  · rw [respond_of_writes hwrites] at h
    exact absurd rfl h
  · exact hself

/-- A reader that is not there is not exported. -/
theorem respond_of_exports_missing (h : r.Exports id name path)
    (hreader : s.registry.reader? id = none) : s.respond arrival r = (.bare .notFound, s) := by
  rw [respond_of_exports h, exportSummary, hreader]

/-- A reader without a start date is not exported. -/
theorem respond_of_exports_undated {e : InvalidStartDate} (h : r.Exports id name path)
    (hreader : s.registry.reader? id = some reader)
    (hdate : SummaryCase.of name reader.plot.header reader.series = .error e) :
    s.respond arrival r = (.bare .unprocessable, s) := by
  have hexport : s.exportTo reader name path = .error (.undated e) := by
    rw [exportTo, hdate]
    rfl
  simp only [respond_of_exports h, exportSummary, hreader, hexport]
  rfl

/-! ### What is streamed -/

/-- A signal that is found stands for the same series and keyword in every registry that extends
the one in which it is found. -/
theorem signal?_of_extends {found : Series × String}
    (hextends : s.registry.Extends t.registry) (h : s.signal? name = some found) :
    t.signal? name = some found := by
  simp only [signal?, Option.bind_eq_bind, Option.bind_eq_some_iff] at h ⊢
  obtain ⟨signal, hsignal, reader, hreader, hfound⟩ := h
  exact ⟨signal, hextends.signal _ _ hsignal, reader, hextends.reader _ _ hreader, hfound⟩

/-- The names of a file that was loaded lead to its signals. -/
theorem isSome_signal?_of_loads (h : s.Loads r reader)
    (hname : name ∈ (s.registry.enter arrival.id reader).2) :
    ((s.respond arrival r).2.signal? name).isSome := by
  rw [respond_of_loads h]
  obtain ⟨keyword, hsignal⟩ := Registry.exists_signal (Registry.forall₂_addSignals ..) hname
  rw [signal?_eq_some hsignal (Registry.reader?_enter ..)]
  rfl

/-- A signal streams the same at any later time. -/
theorem Reaches.fetch_eq (h : s.Reaches t) (hsignal : (s.signal? name).isSome) (q : Request) :
    t.fetch q name = s.fetch q name := by
  obtain ⟨found, hfound⟩ := Option.isSome_iff_exists.mp hsignal
  simp only [fetch, hfound, signal?_of_extends h.extends hfound]

/-- What an export leaves: the path has the summary, and opens it unless there was a file that may
not be read; all other files and all directories are as they were. -/
theorem respond_of_writes_text (h : s.Writes r path target case) :
    ∃ text : List Char, case.Tells text
      ∧ (∃ id name reader, r.Exports id name path ∧ s.registry.reader? id = some reader
        ∧ case.Describes name reader.plot.header reader.series)
      ∧ ∃ files : Directory, s.respond arrival r = (.bare .ok, { s with files })
        ∧ files.content? target = some (text.flatMap String.utf8EncodeChar)
        ∧ ((∀ file, s.files.file? target = some file → file.readable) →
          files.open? path = .ok (.ofBytes (text.flatMap String.utf8EncodeChar)))
        ∧ files.current = s.files.current ∧ files.folders = s.files.folders
        ∧ ∀ names, names ≠ target → files.file? names = s.files.file? names := by
  obtain ⟨id, name, reader, hexports, hreader, hcase⟩ := h.exports
  refine ⟨case.text.toList, case.tells_text,
    ⟨id, name, reader, hexports, hreader, SummaryCase.describes_of hcase⟩,
    s.files.set target (Utf8.encode case.text), respond_of_writes h,
    Directory.content?_set_self .., Directory.open?_set h.target _, Directory.current_set ..,
    Directory.folders_set .., ?_⟩
  exact fun names hne => Directory.file?_set_of_ne hne

/-- **A request enters a reader, or writes a file, or leaves everything as it is.**  If it asks for
a file that can be read and converted, one reader is added, and one signal per vector under a name
that was free; otherwise the registry is the same.  If it exports a reader that is there, whose
start date is a day, to a path at which a file can be created, then the file there has the text that
tells the case of the reader, name by name and number by number, and no other file has changed;
otherwise all files are the same.  Whatever does not turn out well, such as the export of a reader
that is missing or has no start date, changes nothing at all.  So a signal streams the same frames at
any later time, whatever has been written meanwhile. -/
theorem changes_of_respond (s : Server) (arrival : Arrival) (r : Request) :
    (∀ reader, s.Loads r reader → s.registry.reader? arrival.id = none → ∃ names : List String,
      names.length = reader.series.vectors.length ∧ names.Nodup
        ∧ (∀ name ∈ names, name ∉ s.registry.names
          ∧ ((s.respond arrival r).2.signal? name).isSome)
        ∧ s.respond arrival r = (.ofJson (enteredJson arrival reader.path names),
          { s with registry := ⟨s.registry.readers ++ [(arrival.id, reader)],
            s.registry.signals ++ List.zipWith (fun name v => (name, ⟨arrival.id, v.keyword⟩))
              names reader.series.vectors⟩ }))
    ∧ ((∀ reader, ¬ s.Loads r reader) → (s.respond arrival r).2.registry = s.registry)
    ∧ (∀ path target case, s.Writes r path target case → ∃ text : List Char, case.Tells text
      ∧ (∃ id name reader, r.Exports id name path ∧ s.registry.reader? id = some reader
        ∧ case.Describes name reader.plot.header reader.series)
      ∧ ∃ files : Directory, s.respond arrival r = (.bare .ok, { s with files })
        ∧ files.content? target = some (text.flatMap String.utf8EncodeChar)
        ∧ ((∀ file, s.files.file? target = some file → file.readable) →
          files.open? path = .ok (.ofBytes (text.flatMap String.utf8EncodeChar)))
        ∧ files.current = s.files.current ∧ files.folders = s.files.folders
        ∧ ∀ names, names ≠ target → files.file? names = s.files.file? names)
    ∧ ((∀ path target case, ¬ s.Writes r path target case) →
      (s.respond arrival r).2.files = s.files)
    ∧ ((s.respond arrival r).1.status ≠ .ok → (s.respond arrival r).2 = s)
    ∧ (∀ id name path, r.Exports id name path →
      (s.registry.reader? id = none → s.respond arrival r = (.bare .notFound, s))
        ∧ ∀ reader e, s.registry.reader? id = some reader →
          SummaryCase.of name reader.plot.header reader.series = .error e →
          s.respond arrival r = (.bare .unprocessable, s))
    ∧ ∀ name, (s.signal? name).isSome → ∀ t, s.Reaches t → ∀ q,
      t.fetch q name = s.fetch q name := by
  refine ⟨?_, registry_respond_of_not_loads, ?_, files_respond_of_not_writes,
    snd_respond_of_status_ne_ok, ?_, ?_⟩
  · intro reader hloads hid
    refine ⟨(s.registry.enter arrival.id reader).2, Registry.length_enter ..,
      Registry.nodup_enter .., ?_, ?_⟩
    · exact fun name hname =>
        ⟨Registry.not_mem_names_of_mem_enter hname, isSome_signal?_of_loads hloads hname⟩
    · rw [respond_of_loads hloads, Registry.enter_of_new hid]
  · exact fun path target case => respond_of_writes_text
  · intro id name path hexports
    exact ⟨respond_of_exports_missing hexports,
      fun reader e => respond_of_exports_undated hexports⟩
  · exact fun name hsignal t ht => ht.fetch_eq hsignal

/-- A request to export the first reader over the file that it was read from. -/
def overwritingRates : Request where
  method := .post
  target := "/readers/00000000-0000-0000-0000-000000000001/export"
  contentType := some "application/json"
  body := "\x7b\"case\":\"C\",\"path\":\"a.plt\"\x7d"
  upgrade := false

theorem exports_overwritingRates : overwritingRates.Exports ⟨1⟩ "C" "a.plt" where
  method := rfl
  route := ⟨"00000000-0000-0000-0000-000000000001", rfl, by decide +kernel⟩
  body := by decide +kernel

theorem writes_overwritingRates :
    ∃ case, ratesServer.Writes overwritingRates "a.plt" ["work", "a.plt"] case := by
  have hdated : (SummaryCase.of "C" ratesFile.plot.header mergedSeries).isOk := rfl
  rcases hcase : SummaryCase.of "C" ratesFile.plot.header mergedSeries with e | case
  · rw [hcase] at hdated
    cases hdated
  · refine ⟨case, ⟨_, _, ratesReader, exports_overwritingRates, ?_, hcase⟩, ?_⟩
    · rw [ratesServer, respond_readingRates]
      exact Registry.reader?_enter ..
    · rw [ratesServer, respond_readingRates]
      exact Directory.target?_eq_some_iff.mp rfl

/-- The file of the rates may be overwritten by their summary, and they go on streaming. -/
theorem fetch_after_overwriting : ∃ path target case text after,
    ratesServer.Writes overwritingRates path target case
      ∧ (ratesServer.respond secondArrival overwritingRates).2 = after
      ∧ mergingServer.files.open? path = .ok (.ofBytes ratesFile.bytes)
      ∧ case.Tells text
      ∧ after.files.open? path = .ok (.ofBytes (text.flatMap String.utf8EncodeChar))
      ∧ (ratesServer.signal? "FOPR").isSome
      ∧ ∀ q, after.fetch q "FOPR" = ratesServer.fetch q "FOPR" := by
  obtain ⟨case, hwrites⟩ := writes_overwritingRates
  obtain ⟨-, -, hfiles, -, -, -, hfetch⟩ :=
    changes_of_respond ratesServer secondArrival overwritingRates
  obtain ⟨text, htells, -, files, hrespond, -, hopen, -⟩ := hfiles _ _ _ hwrites
  have hreadable : ∀ file, ratesServer.files.file? ["work", "a.plt"] = some file →
      file.readable := by
    rw [ratesServer, respond_readingRates]
    intro file hfile
    exact Option.some.inj hfile ▸ rfl
  have hsignal : (ratesServer.signal? "FOPR").isSome := by
    rw [ratesServer, respond_readingRates]
    decide +kernel
  refine ⟨_, _, case, text, _, hwrites, rfl, by decide +kernel, htells, ?_, hsignal, ?_⟩
  · rw [hrespond]
    exact hopen hreadable
  · exact hfetch _ hsignal _ (.single (.request secondArrival overwritingRates new_secondArrival))

end ReservoirPlot.Server
