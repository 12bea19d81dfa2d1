/-
ReservoirPlot/Server/Basic.lean

The server.  It reads plot files on request, offers their vectors as signals, and
exports summaries.  `Server.respond` gives the response to one request and the
server afterwards; only a file that was read enters the registry, and only an
export writes a file.

What the server cannot know by itself, the identifier and the time of a reader
that is to be entered, comes with each request (`Arrival`).
-/
import ReservoirPlot.Extension.Manifest
import ReservoirPlot.Server.Registry
import ReservoirPlot.Server.Request
import ReservoirPlot.Server.Response

namespace ReservoirPlot

/-- A server with its registry and the files that it may name. -/
structure Server where
  manifest : Manifest
  options : SeriesOptions
  registry : Registry
  files : Directory

/-- What a reader gets that a request may enter. -/
structure Arrival where
  id : Uuid
  /-- The time, as it is written. -/
  time : String
deriving DecidableEq, Repr

namespace Server

/-- A server that has read nothing yet, if its manifest gives options. -/
def start? (manifest : Manifest) (files : Directory) : Option Server := do
  return ⟨manifest, ← manifest.options?, .empty, files⟩

/-! ### Bodies -/

/-- The greatest size of a body, in bytes. -/
def maxBodySize : Nat := 2097152

/-- The JSON value of a shape that a request brings, or how the request turns out without
one. -/
def bodyOf (shape : Json.Shape) (r : Request) : Except Status Json :=
  if !(r.contentType.any MediaType.isJson) then .error .unsupportedMediaType
  else if maxBodySize < r.body.utf8ByteSize then .error .payloadTooLarge
  else
    match Json.read shape r.body with
    | .ok j => .ok j
    | .error .malformed => .error .badRequest
    | .error .mismatched => .error .unprocessable

/-- A body with two texts of the given names. -/
def textsOf (first second : String) (r : Request) : Except Status (String × String) := do
  let j ← bodyOf (.record [(first, true, .string), (second, true, .string)]) r
  let text (name : String) : String := ((j.member? name).bind Json.string?).getD ""
  return (text first, text second)

/-! ### Information -/

/-- The path of the page that the server shows. -/
def indexPath : String := "data/index.html"

/-- The page, if there is one. -/
def index (s : Server) : Response :=
  match s.files.text? indexPath with
  | some page => ⟨.ok, .text page⟩
  | none => .bare .notFound

/-- That the server is well, and how many files it has read. -/
def health (s : Server) : Response :=
  .ofJson (.object [("status", .string "ok"), ("loaded_files", .nat s.registry.readers.length)])

/-! ### Readers -/

/-- The name of the file at a path. -/
def nameOfFile (path : String) : String :=
  (Path.fileName? path).getD "unknown"

/-- A reader that was just entered, as JSON. -/
def enteredJson (arrival : Arrival) (path : String) (names : List String) : Json :=
  .object [("id", .string arrival.id.text), ("name", .string (nameOfFile path)),
    ("path", .string path), ("source", .string path), ("headers", .strings names),
    ("desc", .null), ("tags", .null), ("created_at", .string arrival.time),
    ("source_url", .null)]

/-- Reads the file at a path and enters it with all its signals. -/
def readFile (s : Server) (arrival : Arrival) (path : String) : Response × Server :=
  match Plot.loadSeries path (s.files.open? path) s.options with
  | .error failure => (.bare failure.status, s)
  | .ok (plot, series) =>
    let (registry, names) := s.registry.enter arrival.id { path, plot, series }
    (.ofJson (enteredJson arrival path names), { s with registry })

/-- A listed reader as JSON. -/
def listingJson (l : Registry.Listing) : Json :=
  .object [("id", .string l.id.text), ("path", .string l.path),
    ("signals_count", .nat l.names.length), ("headers", .strings l.names)]

/-- Readers that come in some order.  Nothing fixes the order in which a table of readers gives
them; it shows where two readers have one path. -/
def readersIn (s : Server) (order : List (Uuid × Reader)) : Response :=
  .ofJson (.array ((s.registry.listingsIn order).map listingJson))

/-- All readers. -/
def readers (s : Server) : Response :=
  s.readersIn s.registry.readers

/-- The keywords of a reader's series. -/
def readerHeaders (s : Server) (id : Uuid) : Response :=
  match s.registry.reader? id with
  | some reader =>
    .ofJson (.object [("id", .string id.text), ("headers", .strings reader.series.keywords)])
  | none => .bare .notFound

/-- Writes the summary of a reader to a path. -/
def exportTo (s : Server) (reader : Reader) (name path : String) :
    Except Failure Directory := do
  let case ← (SummaryCase.of name reader.plot.header reader.series).mapError .undated
  match s.files.write? path (Utf8.encode case.text) with
  | some files => return files
  | none => throw .unwritable

/-- Writes the summary of the reader with an identifier to a path. -/
def exportSummary (s : Server) (id : Uuid) (name path : String) : Response × Server :=
  match s.registry.reader? id with
  | none => (.bare .notFound, s)
  | some reader =>
    match s.exportTo reader name path with
    | .ok files => (.bare .ok, { s with files })
    | .error failure => (.bare failure.status, s)

/-! ### Signals -/

/-- The series and the keyword that a signal stands for: first the signal is looked up, then
its reader. -/
def signal? (s : Server) (name : String) : Option (Series × String) := do
  let signal ← s.registry.signal? name
  let reader ← s.registry.reader? signal.reader
  return (reader.series, signal.keyword)

/-- The frames of a signal, on a connection that is to become a socket. -/
def fetch (s : Server) (r : Request) (name : String) : Response :=
  if r.method ≠ .get then .bare .methodNotAllowed
  else if !r.upgrade then .bare .badRequest
  else
    match s.signal? name with
    | some (series, keyword) =>
      ⟨.switchingProtocols, .frames (series.send keyword none).frames⟩
    | none => .bare .notFound

/-! ### Requests -/

/-- The response on a route that takes the request's method. -/
def handle (s : Server) (arrival : Arrival) (r : Request) : Route → Response × Server
  | .index => (s.index, s)
  | .health => (s.health, s)
  | .info => (.ofJson s.manifest.json, s)
  | .stop => (.bare .ok, s)
  | .readers => (s.readers, s)
  | .readFile =>
    match textsOf "mode" "path" r with
    | .ok (_, path) => s.readFile arrival path
    | .error status => (.bare status, s)
  | .fetch argument =>
    match PercentEncoding.decode? argument with
    | some name => (s.fetch r name, s)
    | none => (.bare .badRequest, s)
  | .readerHeaders argument =>
    match Uuid.ofArgument? argument with
    | some id => (s.readerHeaders id, s)
    | none => (.bare .badRequest, s)
  | .exportSummary argument =>
    match Uuid.ofArgument? argument with
    | none => (.bare .badRequest, s)
    | some id =>
      match textsOf "case" "path" r with
      | .ok (name, path) => s.exportSummary id name path
      | .error status => (.bare status, s)

/-- The response to a request, and the server afterwards. -/
def respond (s : Server) (arrival : Arrival) (r : Request) : Response × Server :=
  match Route.of? r.target with
  | none => (.bare .notFound, s)
  | some route =>
    if !route.allows r.method then (.bare .methodNotAllowed, s)
    else
      let (response, after) := s.handle arrival r route
      (if r.method = .head then response.head else response, after)

end Server

end ReservoirPlot
