/-
ReservoirPlot/Server/Registry.lean

The files that a server has read and the signals that it offers.  Each file that
was read is a reader under its identifier, and each vector of its series a signal
under a name of its own: the keyword, or if that is taken the keyword with the
least number behind it that makes it free.

A reader is entered in two steps, first the reader and then all its signals, and
a signal is fetched in two steps, first the signal and then its reader.  So
whoever finds a signal finds its reader, whatever happens in between.
-/
import ReservoirPlot.Series.Basic
import ReservoirPlot.Server.Uuid

namespace ReservoirPlot

/-! ### Names -/

/-- A name with a number behind it. -/
def numbered (base : String) (i : Nat) : String := base ++ "_" ++ toString i

/-- A name that is not taken: the base itself or the base with the least number from 1 on.
Of as many numbers as there are names taken, one is free, since the base is taken too. -/
def freeName (taken : List String) (base : String) : String :=
  if base ∈ taken then
    let candidates := (List.range taken.length).map fun i => numbered base (i + 1)
    (candidates.find? fun name => name ∉ taken).getD base
  else base

/-- Names for several bases in turn, each made unique among those taken and those before. -/
def freeNames (taken : List String) : List String → List String
  | [] => []
  | base :: rest =>
    let name := freeName taken base
    name :: freeNames (taken ++ [name]) rest

theorem length_freeNames (taken bases : List String) :
    (freeNames taken bases).length = bases.length := by
  induction bases generalizing taken with
  | nil => rfl
  | cons base rest ih => simp [freeNames, ih]

/-! ### The registry -/

/-- A file that was read. -/
structure Reader where
  path : String
  plot : Plot
  series : Series
deriving DecidableEq

/-- What a signal stands for: a keyword of a reader's series. -/
structure Signal where
  reader : Uuid
  keyword : String
deriving DecidableEq, Repr

/-- The readers by identifier and the signals by name, in the order in which they were
entered. -/
structure Registry where
  readers : List (Uuid × Reader)
  signals : List (String × Signal)
deriving DecidableEq

namespace Registry

/-- The registry of a server that has read nothing. -/
def empty : Registry := ⟨[], []⟩

/-- The reader with an identifier. -/
def reader? (r : Registry) (id : Uuid) : Option Reader :=
  r.readers.lookup id

/-- The signal with a name. -/
def signal? (r : Registry) (name : String) : Option Signal :=
  r.signals.lookup name

/-- The names of all signals. -/
def names (r : Registry) : List String :=
  r.signals.map (·.1)

/-- Enters a reader, in place of one with the same identifier. -/
def addReader (r : Registry) (id : Uuid) (reader : Reader) : Registry :=
  { r with readers := r.readers.filter (fun entry => entry.1 ≠ id) ++ [(id, reader)] }

/-- Enters a signal for each keyword, and gives their names. -/
def addSignals (r : Registry) (id : Uuid) (keywords : List String) : Registry × List String :=
  let names := freeNames r.names keywords
  let signals := List.zipWith (fun name keyword => (name, Signal.mk id keyword)) names keywords
  ({ r with signals := r.signals ++ signals }, names)

/-- Enters a reader and then its signals. -/
def enter (r : Registry) (id : Uuid) (reader : Reader) : Registry × List String :=
  (r.addReader id reader).addSignals id reader.series.keywords

/-- A reader as it is listed: with the names of its signals in ascending order. -/
structure Listing where
  id : Uuid
  path : String
  names : List String
deriving DecidableEq, Repr

/-- The names of a reader's signals, in ascending order. -/
def namesOf (r : Registry) (id : Uuid) : List String :=
  ((r.signals.filter fun entry => entry.2.reader = id).map (·.1)).mergeSort (· ≤ ·)

/-- The listings of readers that come in some order, by ascending path and otherwise in that
order. -/
def listingsIn (r : Registry) (order : List (Uuid × Reader)) : List Listing :=
  (order.map fun entry => Listing.mk entry.1 entry.2.path (r.namesOf entry.1)).mergeSort
    fun a b => a.path ≤ b.path

/-- All readers, by ascending path and otherwise in the order in which they were entered. -/
def listings (r : Registry) : List Listing :=
  r.listingsIn r.readers

end Registry

end ReservoirPlot
