/-
ReservoirPlot/Server/Uuid.lean

Identifiers of 128 bits.  They are written as groups of hexadecimal digits, and
read also without the hyphens, in braces, or with the name of their scheme in
front.
-/
import ReservoirPlot.Text.Escapes

namespace ReservoirPlot

/-- An identifier. -/
structure Uuid where
  bits : BitVec 128
deriving DecidableEq, Repr

namespace Uuid

/-- The number of digits in each group. -/
def groupSizes : List Nat := [8, 4, 4, 4, 12]

/-- The identifier with the given digits. -/
def ofDigits? (digits : List Char) : Option Uuid := do
  if digits.length = 32 then
    return ⟨BitVec.ofNat 128 (← Hexadecimal.number? digits)⟩
  else none

/-- The identifier with the given digits and a hyphen between any two groups. -/
def ofGroups? (text : List Char) : Option Uuid :=
  let groups := text.splitOn '-'
  if groups.map List.length = groupSizes then ofDigits? groups.flatten else none

/-- The scheme that may stand in front, in small letters or in capitals. -/
def scheme : List Char := "urn:uuid:".toList

/-- The identifier that a text stands for. -/
def ofText? (text : String) : Option Uuid :=
  let cs := text.toList
  if cs.length = 32 then ofDigits? cs
  else if cs.length = 36 then ofGroups? cs
  else if cs.length = 38 && cs.head? = some '\x7b' && cs.getLast? = some '\x7d' then
    ofGroups? (cs.drop 1).dropLast
  else if cs.length = 45 && (cs.take scheme.length).map Char.toLower = scheme then
    ofGroups? (cs.drop scheme.length)
  else none

/-- The digits cut into groups. -/
def groupsOf : List Nat → List Char → List (List Char)
  | [], _ => []
  | size :: sizes, cs => cs.take size :: groupsOf sizes (cs.drop size)

/-- The text of the identifier. -/
def text (u : Uuid) : String :=
  String.intercalate "-"
    ((groupsOf groupSizes (Hexadecimal.digits 32 u.bits.toNat)).map String.ofList)

end Uuid

end ReservoirPlot
