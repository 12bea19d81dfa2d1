/-
ReservoirPlot/Server/Request.lean

Requests, and where they are directed.  A request is directed by the path before
its query; a part of the path that is an argument must not be empty.
-/
import ReservoirPlot.Files.Path
import ReservoirPlot.Server.MediaType
import ReservoirPlot.Server.PercentEncoding
import ReservoirPlot.Server.Uuid

namespace ReservoirPlot

/-- What a request does to the thing that its path names. -/
inductive Method
  | get
  | head
  | post
  | other
deriving DecidableEq, Repr

/-- A request. -/
structure Request where
  method : Method
  /-- The path, with the query if there is one. -/
  target : String
  contentType : Option String
  body : String
  /-- Whether the connection is to become a socket for frames. -/
  upgrade : Bool
deriving DecidableEq, Repr

/-- What a path names.  Arguments are kept as they are written. -/
inductive Route
  | index
  | health
  | info
  | stop
  | readFile
  | fetch (signal : String)
  | readers
  | readerHeaders (id : String)
  | exportSummary (id : String)
deriving DecidableEq, Repr

namespace Route

/-- The path of a target, without query and fragment. -/
def pathOf (target : String) : String :=
  String.ofList (target.toList.takeWhile fun c => c ≠ '?' && c ≠ '#')

/-- A route with an argument, which must not be empty. -/
def withArgument (route : String → Route) (argument : String) : Option Route :=
  if argument = "" then none else some (route argument)

/-- What a target names. -/
def of? (target : String) : Option Route :=
  match Path.parts (pathOf target) with
  | ["", ""] => some index
  | ["", "health"] => some health
  | ["", "info"] => some info
  | ["", "stop"] => some stop
  | ["", "read-file"] => some readFile
  | ["", "fetch", signal] => withArgument fetch signal
  | ["", "readers"] => some readers
  | ["", "readers", id, "headers"] => withArgument readerHeaders id
  | ["", "readers", id, "export"] => withArgument exportSummary id
  | _ => none

/-- Whether a route takes requests that bring a body. -/
def takesBody : Route → Bool
  | readFile => true
  | exportSummary _ => true
  | _ => false

/-- Whether a route takes a method; what can be got can also be asked for its head. -/
def allows (r : Route) (m : Method) : Bool :=
  match m with
  | .get => !r.takesBody
  | .head => !r.takesBody
  | .post => r.takesBody
  | .other => false

end Route

/-- The identifier that an argument gives. -/
def Uuid.ofArgument? (argument : String) : Option Uuid := do
  Uuid.ofText? (← PercentEncoding.decode? argument)

end ReservoirPlot
