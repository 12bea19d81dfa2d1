/-
ReservoirPlot/Json/Scan.lean

The parts of a JSON text: blanks, words, numbers and strings.  A scan takes
characters from the front of the text and fails at the first that does not fit.
A fault is of one of two kinds: the text is not JSON (`malformed`), or it is JSON
so far but holds another value than is wanted (`mismatched`).

Numbers and strings can be scanned for their value or passed over.  What is
passed over must be JSON, but its numbers may be of any size and its escapes
need not give characters.
-/
import ReservoirPlot.Json.Basic
import ReservoirPlot.Text.Escapes

namespace ReservoirPlot.Json

/-- Why a text cannot be read. -/
inductive Fault
  /-- The text is not JSON. -/
  | malformed
  /-- The text holds a value of another shape. -/
  | mismatched
deriving DecidableEq, Repr

/-- A scan of the text that is left. -/
abbrev Scan := StateT (List Char) (Except Fault)

namespace Scan

/-! ### Characters -/

/-- The next character, which stays in the text. -/
def peek : Scan (Option Char) := do
  return (← get).head?

/-- Takes the next character. -/
def next : Scan Char := do
  match ← get with
  | c :: cs => do
    set cs
    return c
  | [] => throw .malformed

/-- Takes the next character if it is the given one, and says whether it was. -/
def accept (c : Char) : Scan Bool := do
  match ← get with
  | d :: cs =>
    if d = c then do
      set cs
      return true
    else return false
  | [] => return false

/-- Takes the given character. -/
def expect (c : Char) : Scan Unit := do
  unless ← accept c do
    throw .malformed

/-- Takes a fixed word. -/
def word : List Char → Scan Unit
  | [] => pure ()
  | c :: cs => do
    expect c
    word cs

/-- Whether a character is a blank between the parts of a value. -/
def isGap (c : Char) : Bool :=
  c = ' ' || c = '\n' || c = '\t' || c = '\r'

/-- Passes over blanks. -/
def skipGap : Scan Unit :=
  modify (·.dropWhile isGap)

/-! ### Numbers -/

/-- A number as it is written. -/
structure Numeral where
  negative : Bool
  whole : List Char
  fraction : List Char
  /-- The exponent of ten, if one is written. -/
  exponent? : Option Int
deriving DecidableEq, Repr

/-- A run of digits, which may be empty. -/
def digits : Scan (List Char) := do
  let cs ← get
  set (cs.dropWhile Char.isDigit)
  return cs.takeWhile Char.isDigit

/-- A run of at least one digit. -/
def someDigits : Scan (List Char) := do
  let ds ← digits
  if ds.isEmpty then throw .malformed else return ds

/-- The number that a run of digits stands for. -/
def digitsValue (ds : List Char) : Nat :=
  ds.foldl (fun n c => n * 10 + (c.toNat - '0'.toNat)) 0

/-- The digits after a decimal point, if there is one. -/
def fraction : Scan (List Char) := do
  if ← accept '.' then someDigits else return []

/-- The exponent after its mark, if there is one. -/
def exponent : Scan (Option Int) := do
  if (← accept 'e') || (← accept 'E') then do
    let negative ← accept '-'
    unless negative do
      let _ ← accept '+'
    let n : Int := digitsValue (← someDigits)
    return some (if negative then -n else n)
  else return none

/-- A number; its whole part has no idle zero in front. -/
def numeral : Scan Numeral := do
  let negative ← accept '-'
  let whole ← someDigits
  if whole.head? = some '0' && 1 < whole.length then
    throw .malformed
  let fraction ← fraction
  let exponent? ← exponent
  return ⟨negative, whole, fraction, exponent?⟩

/-- The first number that does not fit in 64 bits. -/
def wordLimit : Nat := 0x10000000000000000

/-- Digits gathered into a 64-bit significand, and the digits that no longer fit. -/
def gather (significand : Nat) : List Char → Nat × List Char
  | [] => (significand, [])
  | c :: cs =>
    let more := significand * 10 + (c.toNat - '0'.toNat)
    if more < wordLimit then gather more cs else (significand, c :: cs)

/-- The leading digits of a numeral as a 64-bit significand, and the exponent of ten that
goes with them. -/
def Numeral.leading (n : Numeral) : Nat × Int :=
  let whole := gather 0 n.whole
  let exponent := n.exponent?.getD 0
  if whole.2.isEmpty then
    let all := gather whole.1 n.fraction
    (all.1, exponent - (n.fraction.length - all.2.length : Nat))
  else (whole.1, exponent + whole.2.length)

/-- Whether the number is within double precision: the double nearest to its leading
digits, times the double nearest to the power of ten, must be finite. -/
def Numeral.inRange (n : Numeral) : Bool :=
  let (significand, exponent) := n.leading
  if significand = 0 || exponent < 0 then true
  else if 308 < exponent then false
  else !(Binary64.ofNat significand * Binary64.ofNat (Nat.pow 10 exponent.toNat)).isInfinite

/-- The decimal that the digits stand for. -/
def Numeral.decimal (n : Numeral) : Decimal :=
  ⟨digitsValue (n.whole ++ n.fraction), n.exponent?.getD 0 - n.fraction.length⟩

/-- The integer that the numeral stands for, if it is written as one and fits 64 bits. -/
def Numeral.integer? (n : Numeral) : Option Int :=
  let magnitude := digitsValue n.whole
  if !n.fraction.isEmpty || n.exponent?.isSome then none
  else if n.negative then
    if 0 < magnitude && 2 * magnitude ≤ wordLimit then some (-magnitude) else none
  else if magnitude < wordLimit then some magnitude else none

/-- A number that is not too great. -/
def number : Scan Number := do
  let n ← numeral
  match n.integer? with
  | some k => return .integer k
  | none => if n.inRange then return .decimal n.negative n.decimal else throw .malformed

/-! ### Strings -/

/-- A hexadecimal digit. -/
def hexDigit : Scan Nat := do
  match Hexadecimal.value? (← next) with
  | some n => return n
  | none => throw .malformed

/-- Four hexadecimal digits. -/
def hexUnit : Scan Nat := do
  let a ← hexDigit
  let b ← hexDigit
  let c ← hexDigit
  let d ← hexDigit
  return ((a * 16 + b) * 16 + c) * 16 + d

/-- Whether a unit is the first of a surrogate pair. -/
def isLead (unit : Nat) : Bool := 0xD800 ≤ unit && unit < 0xDC00

/-- Whether a unit is the second of a surrogate pair. -/
def isTrail (unit : Nat) : Bool := 0xDC00 ≤ unit && unit < 0xE000

/-- The character of an escape after its letter: one above the basic plane is written as
a surrogate pair, and a surrogate has no other use. -/
def escapedUnit : Scan Char := do
  let unit ← hexUnit
  if isLead unit then do
    expect '\\'
    expect 'u'
    let trail ← hexUnit
    if isTrail trail then
      return Char.ofNat (0x10000 + (unit - 0xD800) * 0x400 + (trail - 0xDC00))
    else throw .malformed
  else if isTrail unit then throw .malformed
  else return Char.ofNat unit

/-- The character of an escape of one letter. -/
def letterEscape? (c : Char) : Option Char :=
  match c with
  | '"' => some '"'
  | '\\' => some '\\'
  | '/' => some '/'
  | 'b' => some '\x08'
  | 'f' => some '\x0c'
  | 'n' => some '\n'
  | 'r' => some '\r'
  | 't' => some '\t'
  | _ => none

/-- The character of an escape after its backslash. -/
def escape : Scan Char := do
  let letter ← next
  if letter = 'u' then escapedUnit
  else match letterEscape? letter with
    | some c => return c
    | none => throw .malformed

/-- Passes over an escape after its backslash. -/
def passEscape : Scan Unit := do
  let letter ← next
  if letter = 'u' then do
    let _ ← hexUnit
  else if (letterEscape? letter).isNone then
    throw .malformed

/-- The characters up to the closing quote, which are no more than the bound. -/
def stringRest : Nat → Scan (List Char)
  | 0 => throw .malformed
  | bound + 1 => do
    let c ← next
    if c = '"' then return []
    else if c.toNat < 0x20 then throw .malformed
    else do
      let d ← if c = '\\' then escape else pure c
      let ds ← stringRest bound
      return d :: ds

/-- Passes over the characters up to the closing quote. -/
def passStringRest : Nat → Scan Unit
  | 0 => throw .malformed
  | bound + 1 => do
    let c ← next
    if c = '"' then return ()
    else if c.toNat < 0x20 then throw .malformed
    else do
      if c = '\\' then passEscape
      passStringRest bound

/-- A string. -/
def string : Scan String := do
  expect '"'
  let chars ← stringRest (← get).length
  return String.ofList chars

/-- Passes over a string. -/
def passString : Scan Unit := do
  expect '"'
  passStringRest (← get).length

/-! ### Values without brackets -/

/-- A value that is neither an array nor an object. -/
def scalar : Scan Json := do
  match ← peek with
  | some 'n' => do
    word ['n', 'u', 'l', 'l']
    return .null
  | some 't' => do
    word ['t', 'r', 'u', 'e']
    return .bool true
  | some 'f' => do
    word ['f', 'a', 'l', 's', 'e']
    return .bool false
  | some '"' => return .string (← string)
  | _ => return .number (← number)

/-- Passes over a value that is neither an array nor an object. -/
def passScalar : Scan Unit := do
  match ← peek with
  | some 'n' => word ['n', 'u', 'l', 'l']
  | some 't' => word ['t', 'r', 'u', 'e']
  | some 'f' => word ['f', 'a', 'l', 's', 'e']
  | some '"' => passString
  | _ => do
    let _ ← numeral

/-! ### Between the parts of an array or object -/

/-- What follows a part: `true` if another must follow, `false` after the closing
bracket. -/
def separator (closing : Char) : Scan Bool := do
  skipGap
  if ← accept ',' then return true
  else do
    expect closing
    return false

/-- Whether the closing bracket follows at once, which is then taken. -/
def closes (closing : Char) : Scan Bool := do
  skipGap
  accept closing

/-- The name of a member. -/
def name : Scan String := do
  skipGap
  string

/-- The colon after the name of a member. -/
def colon : Scan Unit := do
  skipGap
  expect ':'

/-- The depth that is left inside one more bracket. -/
def enter (depth : Nat) : Scan Nat :=
  if depth ≤ 1 then throw .malformed else return depth - 1

end Scan

end ReservoirPlot.Json
