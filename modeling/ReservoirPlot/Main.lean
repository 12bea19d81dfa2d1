/-
ReservoirPlot/Main.lean

The program: it opens the input, lets `CommandLine.report` do the rest, creates
the output and prints the log.
-/
import ReservoirPlot.CommandLine

namespace ReservoirPlot.CommandLine

/-- What an error of the operating system says about a file. -/
def accessError : IO.Error → AccessError
  | .noFileOrDirectory .. => .notFound
  | .permissionDenied _ code description => .refused description code.toNat
  | .resourceExhausted _ code description => .refused description code.toNat
  | .inappropriateType _ code description => .refused description code.toNat
  | .invalidArgument _ code description => .refused description code.toNat
  | e => .refused (toString e) 0

/-- Opens a file.  A directory can be opened but not read. -/
def openFile (path : String) : IO (Except AccessError Source) := do
  try
    let bytes ← IO.FS.readBinFile path
    return .ok (.ofBytes bytes.toList)
  catch e =>
    match e with
    | .inappropriateType .. => return .ok .unreadable
    | e => return .error (accessError e)

/-- The word for a level. -/
def Level.word : Level → String
  | debug => "DEBUG"
  | info => "INFO"
  | warning => "WARN"

/-- Prints entries of the log. -/
def printLog (log : List Entry) : IO Unit := do
  for entry in log do
    IO.println s!"{entry.level.word} {entry.text}"

/-- Prints a failure. -/
def printFailure (failure : Failure) : IO UInt32 := do
  IO.eprintln s!"Error: {failure.message}"
  return 1

/-- Creates the output. -/
def create (a : Arguments) (text : String) : IO Bool := do
  try
    IO.FS.writeFile a.output text
    return true
  catch _ =>
    return false

end ReservoirPlot.CommandLine

open ReservoirPlot.CommandLine in
/-- Runs the program. -/
def main (args : List String) : IO UInt32 := do
  let a := Arguments.ofList args
  let opened ← openFile a.input
  match report a opened [] with
  | .error failure log =>
    printLog log
    printFailure failure
  | .ok text log =>
    printLog log
    if ← create a text then
      match finish a [] with
      | .ok () log => printLog log
      | .error _ log => printLog log
      return 0
    else
      printFailure .unwritable
