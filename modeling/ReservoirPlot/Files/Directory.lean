/-
ReservoirPlot/Files/Directory.lean

A working directory and the files around it.  Everything is found by the names that
lead to it from the root of all files; the working directory is one place among the
others, from which paths start that do not start at the root.  A directory is there
as soon as a file or another directory is in it, and it may also be empty.

What may be done with a file or a directory depends on rights.  A file may be
readable and writable.  A directory may be readable, it may be writable, which is
what creating a file in it takes, and it may be passed on the way to what is in it.
Whoever creates a file has all rights to it.
-/
import ReservoirPlot.Files.Path
import ReservoirPlot.Source
import ReservoirPlot.Text.Utf8

namespace ReservoirPlot

/-- A file: its bytes, and what may be done with it. -/
structure File where
  bytes : List UInt8
  readable : Bool
  writable : Bool
deriving DecidableEq, Repr

/-- What may be done with a directory. -/
structure FolderRights where
  readable : Bool
  writable : Bool
  passable : Bool
deriving DecidableEq, Repr

/-- All files that there are, with the directory in which paths start. -/
structure Directory where
  /-- The names that lead from the root to the working directory. -/
  current : List String
  /-- The directories that may be empty or do not give all rights. -/
  folders : List (List String × FolderRights)
  files : List (List String × File)
deriving DecidableEq, Repr

namespace Directory

/-- A working directory without any files. -/
def empty : Directory := ⟨["work"], [], []⟩

/-- The file to which names lead from the root. -/
def file? (d : Directory) (names : List String) : Option File :=
  d.files.lookup names

/-- The bytes of a file. -/
def content? (d : Directory) (names : List String) : Option (List UInt8) :=
  (d.file? names).map File.bytes

/-- Whether names lead to a directory: the working one, or one on the way to it, to a directory that
is listed or to a file. -/
def isDirectory (d : Directory) (names : List String) : Bool :=
  names.isPrefixOf d.current || d.folders.any (names.isPrefixOf ·.1)
    || d.files.any fun file => names.isPrefixOf file.1 && names != file.1

/-- What may be done with a directory. -/
def rights (d : Directory) (names : List String) : FolderRights :=
  (d.folders.lookup names).getD ⟨true, true, true⟩

/-- Whether names lead to a directory through which one may go on. -/
def mayPass (d : Directory) (names : List String) : Bool :=
  d.isDirectory names && (d.rights names).passable

/-- Writes a file under names from the root; the directories on the way to it are made as needed. A
file that is there keeps its rights. -/
def set (d : Directory) (names : List String) (bytes : List UInt8) : Directory :=
  { d with
    files :=
      if d.files.any (·.1 = names) then
        d.files.map fun file => if file.1 = names then (names, { file.2 with bytes }) else file
      else d.files ++ [(names, ⟨bytes, true, true⟩)] }

/-- Writes a file under names from the working directory. -/
def put (d : Directory) (names : List String) (bytes : List UInt8) : Directory :=
  d.set (d.current ++ names) bytes

/-! ### Following a path -/

/-- The greatest size of a name, in bytes. -/
def maxNameSize : Nat := 255

/-- The size, in bytes, from which on a path is too long. -/
def maxPathSize : Nat := 4096

/-- Goes on from a place by one part of a path.  Above the root is the root. -/
def step (d : Directory) (names : List String) (part : String) :
    Except AccessError (List String) :=
  if !d.isDirectory names then .error .notDirectory
  else if part = "" then .ok names
  else if !d.mayPass names then .error .denied
  else if part = "." then .ok names
  else if part = ".." then .ok names.dropLast
  else if maxNameSize < part.utf8ByteSize then .error .nameTooLong
  else if (d.file? (names ++ [part])).isSome || d.isDirectory (names ++ [part]) then
    .ok (names ++ [part])
  else .error .notFound

/-- Where parts of a path lead, one after the other. -/
def follow (d : Directory) : List String → List String → Except AccessError (List String)
  | names, [] => .ok names
  | names, part :: rest =>
    match d.step names part with
    | .ok next => follow d next rest
    | .error e => .error e

/-- Where a path starts. -/
def start (d : Directory) (path : String) : List String :=
  if Path.isRooted path then [] else d.current

/-- A path as a whole is fit to be followed. -/
def checkPath (path : String) : Except AccessError Unit :=
  if path.toList.any (· = '\x00') then .error .zeroCharacter
  else if path = "" then .error .notFound
  else if maxPathSize ≤ path.utf8ByteSize then .error .nameTooLong
  else .ok ()

/-- Where a path leads. -/
def resolve (d : Directory) (path : String) : Except AccessError (List String) := do
  checkPath path
  d.follow (d.start path) (Path.parts path)

/-! ### Reading and writing -/

/-- Opens what a path leads to.  A directory can be opened but not read. -/
def open? (d : Directory) (path : String) : Except AccessError Source := do
  let names ← d.resolve path
  match d.file? names with
  | some file => if file.readable then return .ofBytes file.bytes else throw .denied
  | none => if (d.rights names).readable then return .unreadable else throw .denied

/-- The text of a file, if it is one. -/
def text? (d : Directory) (path : String) : Option String := do
  let source ← (d.open? path).toOption
  if source.ending = .clean then Utf8.decode? source.bytes else none

/-- Whether a file under names may be written: a file that is there by its own right, a new one by
that of its directory. -/
def mayWrite (d : Directory) (folder names : List String) : Bool :=
  match d.file? names with
  | some file => file.writable
  | none => (d.rights folder).writable

/-- Where the file would be that a path is to create: its directory is there, it is not itself a
directory, and one has the right to write it. -/
def target? (d : Directory) (path : String) : Option (List String) := do
  (checkPath path).toOption
  let parts := Path.parts path
  let name ← parts.getLast?
  let folder ← (d.follow (d.start path) parts.dropLast).toOption
  let target := folder ++ [name]
  if name ∈ ["", ".", ".."] || maxNameSize < name.utf8ByteSize then none
  else if !d.mayPass folder || d.isDirectory target || !d.mayWrite folder target then none
  else some target

/-- Writes a file that a path leads to, whether it is there or not. -/
def write? (d : Directory) (path : String) (bytes : List UInt8) : Option Directory := do
  return d.set (← d.target? path) bytes

/-! ### What writing does -/

section

variable {names other : List String} {bytes : List UInt8}

@[simp] theorem current_set (d : Directory) (names : List String) (bytes : List UInt8) :
    (d.set names bytes).current = d.current := rfl

@[simp] theorem folders_set (d : Directory) (names : List String) (bytes : List UInt8) :
    (d.set names bytes).folders = d.folders := rfl

/-- A file that was written holds what was written, with the rights that it had or with all. -/
theorem file?_set_self (d : Directory) (names : List String) (bytes : List UInt8) :
    (d.set names bytes).file? names
      = some { (d.file? names).getD ⟨[], true, true⟩ with bytes } := by
  obtain ⟨current, folders, files⟩ := d
  simp only [set, file?]
  split
  · next h =>
    induction files with
    | nil => simp at h
    | cons file rest ih =>
      obtain ⟨fileNames, content⟩ := file
      by_cases hf : fileNames = names
      · simp [hf]
      · have hn : (names == fileNames) = false := by simpa using fun hn => hf hn.symm
        simp only [List.any_cons, hf, decide_false, Bool.false_or] at h
        simp [List.lookup_cons, hf, hn, ih h]
  · next h =>
    induction files with
    | nil => simp
    | cons file rest ih =>
      obtain ⟨fileNames, content⟩ := file
      simp only [List.any_cons, Bool.or_eq_true, decide_eq_true_eq, not_or] at h
      have hn : (names == fileNames) = false := by simpa using fun hn => h.1 hn.symm
      simp [List.lookup_cons, hn, ih h.2]

theorem content?_set_self (d : Directory) (names : List String) (bytes : List UInt8) :
    (d.set names bytes).content? names = some bytes := by
  rw [content?, file?_set_self, Option.map_some]

/-- Writing a file leaves the others as they are. -/
theorem file?_set_of_ne {d : Directory} (h : other ≠ names) :
    (d.set names bytes).file? other = d.file? other := by
  obtain ⟨current, folders, files⟩ := d
  have ho : (other == names) = false := by simpa using h
  simp only [set, file?]
  split
  · next hany =>
    clear hany
    induction files with
    | nil => rfl
    | cons file rest ih =>
      obtain ⟨fileNames, content⟩ := file
      by_cases hf : fileNames = names
      · subst hf
        simp [List.lookup_cons, ho, ih]
      · simp [List.lookup_cons, hf, ih]
  · next hany =>
    clear hany
    induction files with
    | nil => simp [List.lookup_cons, ho]
    | cons file rest ih =>
      obtain ⟨fileNames, content⟩ := file
      simp [List.lookup_cons, ih]

end

end Directory

end ReservoirPlot
