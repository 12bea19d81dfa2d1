/-
ReservoirPlot/Extension/Core.lean

An extension and its core.  The extension opens a socket, registers with the
core that started it, and from then on sends heartbeats.  What the network makes
of it is given: which addresses are the machine's own and which sockets are taken,
and what the core answers, if it answers at all.
-/
import ReservoirPlot.Binary.Binary64
import ReservoirPlot.Extension.Address
import ReservoirPlot.Extension.Manifest

namespace ReservoirPlot.Extension

/-! ### Opening a socket -/

/-- The machine that an extension runs on. -/
structure Machine where
  /-- The address that a host stands for. -/
  resolve : String → Option Address
  /-- Whether an address is one of its own. -/
  isOwn : Address → Bool
  /-- The sockets that are taken. -/
  taken : List (Address × UInt16)
  /-- The socket that is given to one who asks for any. -/
  free : UInt16

/-- A machine that is on no network. -/
def Machine.alone (taken : List (Address × UInt16)) (free : UInt16) : Machine :=
  ⟨Address.ofHost?, Address.isLocal, taken, free⟩

/-- Whether somebody listens where another one wants to. -/
def Machine.isTaken (machine : Machine) (address : Address) (socket : UInt16) : Bool :=
  machine.taken.any fun other => other.2 = socket && other.1.overlaps address

/-- Why a socket cannot be opened. -/
structure BindProblem where
  wanted : Endpoint
deriving DecidableEq, Repr

/-- The text of the problem. -/
def BindProblem.message (p : BindProblem) : String := s!"binding {p.wanted.text}"

/-- An extension that listens. -/
structure Listening where
  address : Address
  /-- The manifest with the socket that was opened. -/
  manifest : Manifest
deriving Repr

/-- Opens the socket of a manifest; one who asks for number 0 gets any free one, which then
stands in the manifest. -/
def bind (machine : Machine) (m : Manifest) : Except BindProblem Listening :=
  let wanted := m.connection.own
  match machine.resolve wanted.host with
  | none => .error ⟨wanted⟩
  | some address =>
    if !machine.isOwn address || machine.isTaken address wanted.socket then
      .error ⟨wanted⟩
    else
      let socket := if wanted.socket = 0 then machine.free else wanted.socket
      .ok ⟨address, { m with connection := { m.connection with own := { wanted with socket } } }⟩

/-! ### Talking to the core -/

/-- What an extension sends to its core. -/
structure Notice where
  path : String
  body : Json
deriving Repr

/-- How a notice is sent. -/
def Notice.method : String := "POST"

/-- What a notice says that its body is. -/
def Notice.contentType : String := "application/json"

/-- The core: the status with which it answers a notice, if it can be reached. -/
abbrev Core := Notice → Option Nat

/-- The notice that registers an extension. -/
def registration (m : Manifest) : Notice := ⟨"/register", m.json⟩

/-- The notice that an extension is alive. -/
def heartbeat (id : String) (timestamp : Binary64) : Notice :=
  ⟨"/heartbeat", .object [("id", .string id), ("timestamp", .double timestamp)]⟩

/-- Whether a core takes a registration: it answers, and with no error. -/
def register (core : Core) (m : Manifest) : Bool :=
  match core (registration m) with
  | some status => status < 400
  | none => false

/-- What became of a heartbeat. -/
inductive Beat
  | sent
  | refused (status : Nat)
  | unreached
deriving DecidableEq, Repr

/-- Sends a heartbeat. -/
def beat (core : Core) (id : String) (timestamp : Binary64) : Beat :=
  match core (heartbeat id timestamp) with
  | some status => if 200 ≤ status && status < 300 then .sent else .refused status
  | none => .unreached

/-! ### Status texts -/

/-- The registered statuses and their texts. -/
def reasons : List (Nat × String) :=
  [(100, "Continue"), (101, "Switching Protocols"), (102, "Processing"), (103, "Early Hints"),
    (200, "OK"), (201, "Created"), (202, "Accepted"), (203, "Non Authoritative Information"),
    (204, "No Content"), (205, "Reset Content"), (206, "Partial Content"),
    (207, "Multi-Status"), (208, "Already Reported"), (226, "IM Used"),
    (300, "Multiple Choices"), (301, "Moved Permanently"), (302, "Found"), (303, "See Other"),
    (304, "Not Modified"), (305, "Use Proxy"), (307, "Temporary Redirect"),
    (308, "Permanent Redirect"), (400, "Bad Request"), (401, "Unauthorized"),
    (402, "Payment Required"), (403, "Forbidden"), (404, "Not Found"),
    (405, "Method Not Allowed"), (406, "Not Acceptable"),
    (407, "Proxy Authentication Required"), (408, "Request Timeout"), (409, "Conflict"),
    (410, "Gone"), (411, "Length Required"), (412, "Precondition Failed"),
    (413, "Payload Too Large"), (414, "URI Too Long"), (415, "Unsupported Media Type"),
    (416, "Range Not Satisfiable"), (417, "Expectation Failed"), (418, "I'm a teapot"),
    (421, "Misdirected Request"), (422, "Unprocessable Entity"), (423, "Locked"),
    (424, "Failed Dependency"), (425, "Too Early"), (426, "Upgrade Required"),
    (428, "Precondition Required"), (429, "Too Many Requests"),
    (431, "Request Header Fields Too Large"), (451, "Unavailable For Legal Reasons"),
    (500, "Internal Server Error"), (501, "Not Implemented"), (502, "Bad Gateway"),
    (503, "Service Unavailable"), (504, "Gateway Timeout"),
    (505, "HTTP Version Not Supported"), (506, "Variant Also Negotiates"),
    (507, "Insufficient Storage"), (508, "Loop Detected"), (510, "Not Extended"),
    (511, "Network Authentication Required")]

/-- The text of a status. -/
def reason (status : Nat) : String :=
  (reasons.lookup status).getD "<unknown status code>"

/-- What is said about a heartbeat. -/
def Beat.message : Beat → String
  | sent => "Heartbeat sent successfully"
  | refused status => s!"Heartbeat server error: {status} {reason status}"
  | unreached => "Heartbeat network error"

end ReservoirPlot.Extension
