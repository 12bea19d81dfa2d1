/-
ReservoirPlot/Json/Printer.lean

JSON values as text, in one line (`Json.compact`) or one item per line
(`Json.pretty`, indented by two blanks).  Binary numbers are written with the
fewest digits that read back, positionally between 0.000001 and 10^13 for single
and between 0.00001 and 10^16 for double precision, and with an exponent
outside; infinities and what is not a number become `null`.  Text is written
as it is but for the quote, the backslash and control characters.
-/
import ReservoirPlot.Decimal.Style
import ReservoirPlot.Json.Basic

namespace ReservoirPlot.Json

open Binary

/-! ### Numbers -/

/-- How single-precision numbers are written. -/
def singleStyle : Decimal.Style := ⟨fun e => -6 ≤ e && e ≤ 12, true, .even⟩

/-- How double-precision numbers are written. -/
def doubleStyle : Decimal.Style := ⟨fun e => -5 ≤ e && e ≤ 15, true, .even⟩

/-- What a pattern of a format denotes, in a style. -/
def datumText (style : Decimal.Style) (f : Format) : Datum → String
  | .nan => "null"
  | .infinite _ => "null"
  | .finite negative significand exponent => style.finite f negative significand exponent

/-- A number. -/
def Number.text : Number → String
  | .integer n => toString n
  | .single x => datumText singleStyle Binary.single x.datum
  | .double x => datumText doubleStyle Binary.double x.datum
  | .decimal negative d =>
    (if negative then "-" else "") ++ toString d.coefficient ++ "e" ++ toString d.exponent

/-! ### Strings -/

/-- The number of a control character in four hexadecimal digits. -/
def controlEscape (c : Char) : List Char :=
  let digits := Nat.toDigits 16 c.toNat
  ['\\', 'u'] ++ List.replicate (4 - digits.length) '0' ++ digits

/-- One character of a string. -/
def escapeChar (c : Char) : List Char :=
  if c = '"' then ['\\', '"']
  else if c = '\\' then ['\\', '\\']
  else if c = '\x08' then ['\\', 'b']
  else if c = '\x0c' then ['\\', 'f']
  else if c = '\n' then ['\\', 'n']
  else if c = '\r' then ['\\', 'r']
  else if c = '\t' then ['\\', 't']
  else if c.toNat < 0x20 then controlEscape c
  else [c]

/-- A string between its quotes. -/
def stringText (s : String) : String :=
  String.ofList ('"' :: s.toList.flatMap escapeChar ++ ['"'])

/-! ### One line -/

mutual

/-- The value in one line without blanks. -/
def compact : Json → String
  | .null => "null"
  | .bool true => "true"
  | .bool false => "false"
  | .number n => n.text
  | .string s => stringText s
  | .array items => "[" ++ ",".intercalate (compactItems items) ++ "]"
  | .object members => "\x7b" ++ ",".intercalate (compactMembers members) ++ "\x7d"

/-- The items of an array, each in one line. -/
def compactItems : List Json → List String
  | [] => []
  | item :: rest => item.compact :: compactItems rest

/-- The members of an object, each in one line. -/
def compactMembers : List (String × Json) → List String
  | [] => []
  | (name, value) :: rest => (stringText name ++ ":" ++ value.compact) :: compactMembers rest

end

/-! ### One item per line -/

/-- The blanks at the beginning of a line. -/
def indentation (depth : Nat) : String :=
  "".pushn ' ' (2 * depth)

/-- Items between brackets, one per line; nothing between them when there are none. -/
def block (opening closing : String) (depth : Nat) (items : List String) : String :=
  if items.isEmpty then opening ++ closing
  else
    let lead := "\n" ++ indentation (depth + 1)
    opening ++ lead ++ ("," ++ lead).intercalate items ++ "\n" ++ indentation depth ++ closing

mutual

/-- The value at a depth of nesting, one item per line. -/
def prettyAt (depth : Nat) : Json → String
  | .null => "null"
  | .bool true => "true"
  | .bool false => "false"
  | .number n => n.text
  | .string s => stringText s
  | .array items => block "[" "]" depth (prettyItems (depth + 1) items)
  | .object members => block "\x7b" "\x7d" depth (prettyMembers (depth + 1) members)

/-- The items of an array at a depth of nesting. -/
def prettyItems (depth : Nat) : List Json → List String
  | [] => []
  | item :: rest => item.prettyAt depth :: prettyItems depth rest

/-- The members of an object at a depth of nesting. -/
def prettyMembers (depth : Nat) : List (String × Json) → List String
  | [] => []
  | (name, value) :: rest =>
    (stringText name ++ ": " ++ value.prettyAt depth) :: prettyMembers depth rest

end

/-- The value with one item per line. -/
def pretty (j : Json) : String :=
  j.prettyAt 0

end ReservoirPlot.Json
