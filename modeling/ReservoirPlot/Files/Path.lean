/-
ReservoirPlot/Files/Path.lean

Paths as texts, and why a file cannot be opened at one.  A path is a sequence of
names with slashes between them; empty names and single dots stand for nothing.
-/

namespace ReservoirPlot

/-- Why a file cannot be opened. -/
inductive AccessError
  | notFound
  /-- A name on the way leads to a file where a directory is wanted. -/
  | notDirectory
  | nameTooLong
  /-- The path holds a zero character. -/
  | zeroCharacter
  /-- The operating system refuses for another reason. -/
  | refused (description : String) (code : Nat)
deriving DecidableEq, Repr

namespace AccessError

/-- The refusal of what one has no right to. -/
def denied : AccessError := refused "Permission denied" 13

/-- The text of the error. -/
def message : AccessError → String
  | notFound => "No such file or directory (os error 2)"
  | notDirectory => "Not a directory (os error 20)"
  | nameTooLong => "File name too long (os error 36)"
  | zeroCharacter => "file name contained an unexpected NUL byte"
  | refused description code => s!"{description} (os error {code})"

end AccessError

namespace Path

/-- What stands between the slashes of a path, empty parts included. -/
def parts (path : String) : List String :=
  (path.toList.splitOn '/').map String.ofList

/-- The names of a path, in order. -/
def names (path : String) : List String :=
  (parts path).filter fun name => name ≠ "" && name ≠ "."

/-- Whether a path starts at the root of all files. -/
def isRooted (path : String) : Bool :=
  path.toList.head? = some '/'

/-- The last name of a path, unless it leads upwards. -/
def fileName? (path : String) : Option String :=
  match (names path).getLast? with
  | some ".." => none
  | last => last

/-- What follows the last dot of a file name; a dot in the first place does not count. -/
def extension? (path : String) : Option String := do
  let name ← fileName? path
  let reversed := name.toList.reverse
  let stem := (reversed.dropWhile (· != '.')).drop 1
  if stem.isEmpty then none
  else some (String.ofList (reversed.takeWhile (· != '.')).reverse)

end Path

end ReservoirPlot
