/-
ReservoirPlot/Json/Basic.lean

JSON values.  The members of an object keep the order in which they are given,
which is the order in which they are written; `Json.ofMembers` builds an object
in which each name stands once.

Numbers come from four sources.  Counts and sizes are integers, series and
signals hold binary numbers of either width, and a number with a fraction or an
exponent that was read from a text is kept as the decimal that the text gives.
-/
import ReservoirPlot.Binary.Binary64
import ReservoirPlot.Decimal.Shortest

namespace ReservoirPlot

/-- A number in a JSON value. -/
inductive Json.Number
  | integer (n : Int)
  | single (x : Binary32)
  | double (x : Binary64)
  | decimal (negative : Bool) (d : Decimal)
deriving DecidableEq, Repr

/-- A JSON value. -/
inductive Json
  | null
  | bool (b : Bool)
  | number (n : Json.Number)
  | string (s : String)
  | array (items : List Json)
  | object (members : List (String × Json))
deriving Repr

namespace Json

/-! ### Building -/

/-- A natural number. -/
def nat (n : Nat) : Json := .number (.integer n)

/-- A signed 32-bit integer. -/
def int32 (n : Int32) : Json := .number (.integer n.toInt)

/-- A single-precision number. -/
def single (x : Binary32) : Json := .number (.single x)

/-- A double-precision number. -/
def double (x : Binary64) : Json := .number (.double x)

/-- A list of texts. -/
def strings (ss : List String) : Json := .array (ss.map .string)

/-- A value that may be absent, which is then `null`. -/
def optional {α : Type} (f : α → Json) : Option α → Json
  | none => .null
  | some a => f a

/-- Sets a member among members in ascending order of their names. -/
def setMember {α : Type} (name : String) (value : α) :
    List (String × α) → List (String × α)
  | [] => [(name, value)]
  | member :: rest =>
    if name < member.1 then (name, value) :: member :: rest
    else if name = member.1 then (name, value) :: rest
    else member :: setMember name value rest

/-- Members in ascending order of their names; of equal names the last one counts. -/
def sortMembers {α : Type} (members : List (String × α)) : List (String × α) :=
  members.foldl (fun acc member => setMember member.1 member.2 acc) []

/-- The object with the given members, each name once and in ascending order. -/
def ofMembers (members : List (String × Json)) : Json :=
  .object (sortMembers members)

/-! ### Looking inside -/

/-- The member of an object with the given name. -/
def member? (j : Json) (name : String) : Option Json :=
  match j with
  | .object members => (members.find? fun m => m.1 = name).map Prod.snd
  | _ => none

/-- The text of a string. -/
def string? : Json → Option String
  | .string s => some s
  | _ => none

/-- The truth value. -/
def bool? : Json → Option Bool
  | .bool b => some b
  | _ => none

/-- The whole number. -/
def integer? : Json → Option Int
  | .number (.integer n) => some n
  | _ => none

/-- The items of an array. -/
def items? : Json → Option (List Json)
  | .array items => some items
  | _ => none

/-- The texts of an array of strings. -/
def strings? (j : Json) : Option (List String) := do
  let items ← j.items?
  items.mapM string?

end Json

end ReservoirPlot
