/-
ReservoirPlot/Text/Escapes.lean

Characters given by their numbers, and the two kinds of text that use this.  A
message that names something read from a file quotes it, so that the end of the
name and every character in it can be told from the page: the quote and the
backslash get a backslash, line ends, tabs and NUL have short escapes, and
characters that do not print or that would join the one before them are given by
number.  A text for a terminal is written without the control characters that the
terminal would act on; tabs and ends of lines are kept.

Hexadecimal digits are read in either case and written in lower case.
-/
import ReservoirPlot.Text.GraphemeExtend

namespace ReservoirPlot

namespace Hexadecimal

/-! ### Hexadecimal digits -/

/-- The value of a digit. -/
def value? (c : Char) : Option Nat :=
  if '0' ≤ c && c ≤ '9' then some (c.toNat - '0'.toNat)
  else if 'a' ≤ c && c ≤ 'f' then some (c.toNat - 'a'.toNat + 10)
  else if 'A' ≤ c && c ≤ 'F' then some (c.toNat - 'A'.toNat + 10)
  else none

/-- The number that digits stand for. -/
def number? (cs : List Char) : Option Nat :=
  cs.foldlM (fun n c => (value? c).map (16 * n + ·)) 0

/-- The digit of a value below sixteen. -/
def digit (n : Nat) : Char :=
  (Nat.toDigits 16 n).headD '0'

/-- The last `width` digits of a number. -/
def digits : Nat → Nat → List Char
  | 0, _ => []
  | width + 1, n => digits width (n / 16) ++ [digit (n % 16)]

end Hexadecimal

namespace Text

/-! ### Texts in messages -/

/-- The hexadecimal digits of a number, in small letters and without leading zeros. -/
def hexadecimal (n : Nat) : List Char :=
  Nat.toDigits 16 n

/-- A character by its number. -/
def numbered (c : Char) : List Char :=
  ['\\', 'u', '\x7b'] ++ hexadecimal c.toNat ++ ['\x7d']

/-- One character as it stands between quotes. -/
def quoteChar (c : Char) : List Char :=
  if c = '\x00' then ['\\', '0']
  else if c = '\t' then ['\\', 't']
  else if c = '\r' then ['\\', 'r']
  else if c = '\n' then ['\\', 'n']
  else if c = '\\' || c = '"' then ['\\', c]
  else if joinsPrevious c || !isPrintable c then numbered c
  else [c]

/-- The text in double quotes. -/
def quoted (s : String) : String :=
  String.ofList ('"' :: s.toList.flatMap quoteChar ++ ['"'])

/-! ### Texts for a terminal -/

/-- The control characters below 128 that are written as escapes: bell, backspace, form feed,
escape and delete. -/
def steering : List Char := ['\x07', '\x08', '\x0c', '\x1b', '\x7f']

/-- A character as it is shown. -/
def visibleChar (c : Char) : List Char :=
  if c ∈ steering then '\\' :: 'x' :: Hexadecimal.digits 2 c.toNat
  else if 0x80 ≤ c.toNat && c.toNat < 0xa0 then
    "\\u\x7b".toList ++ Hexadecimal.digits 2 c.toNat ++ "\x7d".toList
  else [c]

/-- A text as it is shown. -/
def visible (s : String) : String :=
  String.ofList (s.toList.flatMap visibleChar)

end Text

end ReservoirPlot
