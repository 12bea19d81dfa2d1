/-
ReservoirPlot/Extension/Manifest.lean

The manifest of an extension: what it is called, how it is started, what it
reads, and where it and the core listen.  It is read strictly, so that a manifest
with a missing or repeated entry is refused, and may end in a configuration of
any form, which holds the options for series.
-/
import ReservoirPlot.Files.Directory
import ReservoirPlot.Json.Reader
import ReservoirPlot.Series.Json

namespace ReservoirPlot

/-- Where somebody listens: a host, and the number of a socket there. -/
structure Endpoint where
  host : String
  socket : UInt16
deriving DecidableEq, Repr

/-- The text of an endpoint. -/
def Endpoint.text (e : Endpoint) : String := s!"{e.host}:{e.socket.toNat}"

/-- Where an extension listens, and where the core does. -/
structure Connection where
  own : Endpoint
  core : Endpoint
deriving DecidableEq, Repr

/-- The manifest of an extension. -/
structure Manifest where
  name : String
  id : String
  version : String
  description : String
  mode : String
  author : String
  command : List String
  enabled : Bool
  lastUpdated : String
  gitPath : String
  category : String
  postUrl : String
  webpage : String
  fileFormats : List String
  askForm : Bool
  connection : Connection
  configuration : Json
deriving Repr

namespace Connection

/-- What the text of a connection holds. -/
def shape : Json.Shape :=
  .record [("ip", true, .string), ("port", true, .word16), ("target", true, .string),
    ("target_port", true, .word16)]

/-- The endpoint whose parts are members of an object. -/
def endpointOf? (host socket : String) (j : Json) : Option Endpoint := do
  let host ← (← j.member? host).string?
  let socket ← (← j.member? socket).integer?
  return ⟨host, UInt16.ofNat socket.toNat⟩

/-- The connection that a JSON value of its shape stands for. -/
def ofJson? (j : Json) : Option Connection := do
  return ⟨← endpointOf? "ip" "port" j, ← endpointOf? "target" "target_port" j⟩

/-- The connection as JSON. -/
def json (c : Connection) : Json :=
  .object [("ip", .string c.own.host), ("port", .nat c.own.socket.toNat),
    ("target", .string c.core.host), ("target_port", .nat c.core.socket.toNat)]

end Connection

namespace Manifest

/-- What the text of a manifest holds. -/
def shape : Json.Shape :=
  .record [("name", true, .string), ("id", true, .string), ("version", true, .string),
    ("description", true, .string), ("mode", true, .string), ("author", true, .string),
    ("cmd", true, .strings), ("enabled", true, .boolean), ("last_updated", true, .string),
    ("git_path", true, .string), ("category", true, .string), ("post_url", true, .string),
    ("webpage", true, .string), ("file_formats", true, .strings),
    ("ask_form", true, .boolean), ("connection", true, Connection.shape),
    ("configuration", false, .any)]

/-- The manifest that a JSON value of its shape stands for. -/
def ofJson? (j : Json) : Option Manifest := do
  let text? (name : String) : Option String := do (← j.member? name).string?
  let texts? (name : String) : Option (List String) := do (← j.member? name).strings?
  let truth? (name : String) : Option Bool := do (← j.member? name).bool?
  let name ← text? "name"
  let id ← text? "id"
  let version ← text? "version"
  let description ← text? "description"
  let mode ← text? "mode"
  let author ← text? "author"
  let command ← texts? "cmd"
  let enabled ← truth? "enabled"
  let lastUpdated ← text? "last_updated"
  let gitPath ← text? "git_path"
  let category ← text? "category"
  let postUrl ← text? "post_url"
  let webpage ← text? "webpage"
  let fileFormats ← texts? "file_formats"
  let askForm ← truth? "ask_form"
  let connection ← Connection.ofJson? (← j.member? "connection")
  let configuration := (j.member? "configuration").getD .null
  return {
    name, id, version, description, mode, author, command, enabled, lastUpdated, gitPath
    category, postUrl, webpage, fileFormats, askForm, connection, configuration }

/-- The manifest in a text. -/
def ofText? (text : String) : Option Manifest := do
  ofJson? (← (Json.read shape text).toOption)

/-- The manifest as JSON. -/
def json (m : Manifest) : Json :=
  .object [("name", .string m.name), ("id", .string m.id), ("version", .string m.version),
    ("description", .string m.description), ("mode", .string m.mode),
    ("author", .string m.author), ("cmd", .strings m.command), ("enabled", .bool m.enabled),
    ("last_updated", .string m.lastUpdated), ("git_path", .string m.gitPath),
    ("category", .string m.category), ("post_url", .string m.postUrl),
    ("webpage", .string m.webpage), ("file_formats", .strings m.fileFormats),
    ("ask_form", .bool m.askForm), ("connection", m.connection.json),
    ("configuration", m.configuration)]

/-- The options for series that the configuration gives; without one they are the default. -/
def options? (m : Manifest) : Option SeriesOptions :=
  match m.configuration with
  | .null => some .default
  | j => SeriesOptions.ofJson? j

/-! ### From a file -/

/-- Why there is no manifest. -/
inductive Problem
  | unread (path : String)
  | unparsed (path : String)
deriving DecidableEq, Repr

/-- The text of the problem. -/
def Problem.message : Problem → String
  | unread path => s!"reading {path}"
  | unparsed path => s!"parsing {path}"

/-- The manifest in a file. -/
def load (d : Directory) (path : String) : Except Problem Manifest :=
  match d.text? path with
  | none => .error (.unread path)
  | some text =>
    match ofText? text with
    | some m => .ok m
    | none => .error (.unparsed path)

end Manifest

end ReservoirPlot
