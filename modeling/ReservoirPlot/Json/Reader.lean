/-
ReservoirPlot/Json/Reader.lean

Reading JSON text against an expected shape.  A shape says what a text must hold
(a string, a small number, a record with certain members, or anything), and reading goes
through the text once, so that of several faults the first one in the text
counts.

A record may also be written as the array of its members in order.  Members of
an object that the record does not have are passed over and may nest to any
depth; what is kept nests at most 127 deep.

The recursion follows the brackets of the text, whose number is bounded by its
length; `read` supplies that bound.
-/
import ReservoirPlot.Json.Scan

namespace ReservoirPlot.Json

namespace Scan

/-! ### Any value -/

mutual

/-- A value, nested at most as deep as given. -/
def value : Nat → Nat → Scan Json
  | 0, _ => throw .malformed
  | bound + 1, depth => do
    skipGap
    match ← peek with
    | some '[' => do
      let depth ← enter depth
      let _ ← next
      if ← closes ']' then return .array []
      else return .array (← items bound depth)
    | some '\x7b' => do
      let depth ← enter depth
      let _ ← next
      if ← closes '\x7d' then return .object []
      else return ofMembers (← members bound depth)
    | _ => scalar

/-- The items of an array up to its closing bracket. -/
def items : Nat → Nat → Scan (List Json)
  | 0, _ => throw .malformed
  | bound + 1, depth => do
    let item ← value bound depth
    if ← separator ']' then return item :: (← items bound depth)
    else return [item]

/-- The members of an object up to its closing brace. -/
def members : Nat → Nat → Scan (List (String × Json))
  | 0, _ => throw .malformed
  | bound + 1, depth => do
    let name ← name
    colon
    let item ← value bound depth
    if ← separator '\x7d' then return (name, item) :: (← members bound depth)
    else return [(name, item)]

end

/-! ### Passing over a value -/

mutual

/-- Passes over a value. -/
def passValue : Nat → Scan Unit
  | 0 => throw .malformed
  | bound + 1 => do
    skipGap
    match ← peek with
    | some '[' => do
      let _ ← next
      unless ← closes ']' do
        passItems bound
    | some '\x7b' => do
      let _ ← next
      unless ← closes '\x7d' do
        passMembers bound
    | _ => passScalar

/-- Passes over the items of an array and its closing bracket. -/
def passItems : Nat → Scan Unit
  | 0 => throw .malformed
  | bound + 1 => do
    passValue bound
    if ← separator ']' then passItems bound

/-- Passes over the members of an object and its closing brace. -/
def passMembers : Nat → Scan Unit
  | 0 => throw .malformed
  | bound + 1 => do
    skipGap
    passString
    colon
    passValue bound
    if ← separator '\x7d' then passMembers bound

end

end Scan

/-! ### Shapes -/

/-- What a text must hold. -/
inductive Shape
  | any
  | string
  | boolean
  /-- A whole number below 2^16. -/
  | word16
  | strings
  /-- Members by name, each with whether it is required; one that is not is `null` when
  absent. -/
  | record (members : List (String × Bool × Shape))

namespace Scan

/-- Fails because another value is wanted than the one that follows: a bracket is enough
to tell, any other value must be complete. -/
def mismatch {α : Type} : Scan α := do
  match ← peek with
  | some '[' => throw .mismatched
  | some '\x7b' => throw .mismatched
  | _ => do
    let _ ← scalar
    throw .mismatched

/-- A string is wanted. -/
def wantString : Scan Json := do
  skipGap
  match ← peek with
  | some '"' => scalar
  | _ => mismatch

/-- A truth value is wanted. -/
def wantBoolean : Scan Json := do
  skipGap
  match ← peek with
  | some 't' => scalar
  | some 'f' => scalar
  | _ => mismatch

/-- The first number that does not fit in 16 bits. -/
def word16Limit : Int := 65536

/-- A number of 16 bits is wanted. -/
def wantWord16 : Scan Json := do
  skipGap
  match ← peek with
  | some '[' => throw .mismatched
  | some '\x7b' => throw .mismatched
  | _ => do
    let j ← scalar
    match j.integer? with
    | some n => if 0 ≤ n && n < word16Limit then return j else throw .mismatched
    | none => throw .mismatched

/-- The strings of an array up to its closing bracket. -/
def stringItems : Nat → Scan (List Json)
  | 0 => throw .malformed
  | bound + 1 => do
    let item ← wantString
    if ← separator ']' then return item :: (← stringItems bound)
    else return [item]

/-- An array of strings is wanted. -/
def wantStrings (bound depth : Nat) : Scan Json := do
  skipGap
  match ← peek with
  | some '[' => do
    let _ ← enter depth
    let _ ← next
    if ← closes ']' then return .array []
    else return .array (← stringItems bound)
  | _ => mismatch

/-- The members of a record in order, from those that were found; a required one must be
among them. -/
def complete (found : List (String × Json)) :
    List (String × Bool × Shape) → Scan (List (String × Json))
  | [] => return []
  | (name, required, _) :: rest => do
    let value ← match found.find? fun m => m.1 = name with
      | some m => pure m.2
      | none => if required then throw .mismatched else pure .null
    return (name, value) :: (← complete found rest)

mutual

/-- A value of a shape is wanted, nested at most as deep as given. -/
def want : Nat → Nat → Shape → Scan Json
  | 0, _, _ => throw .malformed
  | bound + 1, depth, shape =>
    match shape with
    | .any => value bound depth
    | .string => wantString
    | .boolean => wantBoolean
    | .word16 => wantWord16
    | .strings => wantStrings bound depth
    | .record fields => do
      skipGap
      match ← peek with
      | some '\x7b' => do
        let depth ← enter depth
        let _ ← next
        let found ← if ← closes '\x7d' then pure []
          else wantMembers bound depth fields []
        return .object (← complete found fields)
      | some '[' => do
        let depth ← enter depth
        let _ ← next
        let values ← wantElements bound depth fields true
        skipGap
        expect ']'
        return .object values
      | _ => mismatch

/-- The members of a record up to its closing brace; a member must not come twice. -/
def wantMembers : Nat → Nat → List (String × Bool × Shape) → List (String × Json) →
    Scan (List (String × Json))
  | 0, _, _, _ => throw .malformed
  | bound + 1, depth, fields, found => do
    let name ← name
    let found ← match fields.find? fun m => m.1 = name with
      | some (_, _, shape) => do
        if found.any fun m => m.1 = name then
          throw .mismatched
        colon
        pure ((name, ← want bound depth shape) :: found)
      | none => do
        colon
        passValue bound
        pure found
    if ← separator '\x7d' then wantMembers bound depth fields found else return found

/-- The members of a record that is written as an array, up to the end of the array. -/
def wantElements : Nat → Nat → List (String × Bool × Shape) → Bool →
    Scan (List (String × Json))
  | 0, _, _, _ => throw .malformed
  | _ + 1, _, [], _ => return []
  | bound + 1, depth, (name, required, shape) :: rest, first => do
    skipGap
    if (← peek) = some ']' then complete [] ((name, required, shape) :: rest)
    else do
      unless first do
        expect ','
      skipGap
      if (← peek) = some ']' then
        throw .malformed
      let item ← want bound depth shape
      return (name, item) :: (← wantElements bound depth rest false)

end

end Scan

/-! ### Whole texts -/

/-- One more than how deep a value may nest. -/
def depthLimit : Nat := 128

/-- Reads a text that holds one value of a shape. -/
def read (shape : Shape) (text : String) : Except Fault Json :=
  let whole : Scan Json := do
    let j ← Scan.want (2 * (← get).length + 16) depthLimit shape
    Scan.skipGap
    if (← get).isEmpty then return j else throw .malformed
  whole.run' text.toList

/-- Reads a text that holds one value. -/
def parse? (text : String) : Option Json :=
  (read .any text).toOption

end ReservoirPlot.Json
