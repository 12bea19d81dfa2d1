/-
ReservoirPlot/Server/Response.lean

Responses: a status, and what comes with it.
-/
import ReservoirPlot.Json.Basic
import ReservoirPlot.Plot.Loading
import ReservoirPlot.Series.Frame

namespace ReservoirPlot

/-- How a request turned out. -/
inductive Status
  | switchingProtocols
  | ok
  | badRequest
  | notFound
  | methodNotAllowed
  | payloadTooLarge
  | unsupportedMediaType
  | unprocessable
  | internalError
deriving DecidableEq, Repr

/-- The number of a status. -/
def Status.code : Status → Nat
  | switchingProtocols => 101
  | ok => 200
  | badRequest => 400
  | notFound => 404
  | methodNotAllowed => 405
  | payloadTooLarge => 413
  | unsupportedMediaType => 415
  | unprocessable => 422
  | internalError => 500

/-- How a request turns out that meets a failure: a file that cannot be opened is not found,
one whose content is at fault cannot be processed, and anything else is the server's. -/
def Failure.status : Failure → Status
  | .unopened .. => .notFound
  | .undecodable .unreadable => .internalError
  | .undecodable _ => .unprocessable
  | .conflicting _ => .unprocessable
  | .undated _ => .unprocessable
  | .unwritable => .internalError

/-- What comes with a response. -/
inductive Content
  | empty
  | text (s : String)
  | json (j : Json)
  /-- The frames that are sent once the connection is a socket. -/
  | frames (fs : List Frame)
deriving Repr

/-- A response. -/
structure Response where
  status : Status
  content : Content
deriving Repr

namespace Response

/-- A response that is only a status. -/
def bare (status : Status) : Response := ⟨status, .empty⟩

/-- A good response with a JSON value. -/
def ofJson (j : Json) : Response := ⟨.ok, .json j⟩

/-- The response without its content. -/
def head (r : Response) : Response := { r with content := .empty }

end Response

end ReservoirPlot
