/-
ReservoirPlot/Extension/Address.lean

Addresses that one can listen at.  A host is written as a name or as an address;
the address is one to four numbers with points between them, of which the last
one fills all the bytes that the others leave (`Address.ofNumerals?`).
-/
import ReservoirPlot.Text.Escapes

namespace ReservoirPlot.Extension

/-- An address that one can listen at. -/
inductive Address
  /-- An address of four bytes. -/
  | short (bytes : UInt32)
  /-- The long address of the machine itself. -/
  | longLoopback
  /-- The long address that stands for every address, the short ones too. -/
  | longAny
deriving DecidableEq, Repr

namespace Address

/-! ### Reading -/

/-- The number that digits of a base stand for. -/
def ofDigits? (base : Nat) : Nat → List Char → Option Nat
  | n, [] => some n
  | n, c :: rest =>
    match Hexadecimal.value? c with
    | some d => if d < base then ofDigits? base (base * n + d) rest else none
    | none => none

/-- The number in one part of an address: it starts with a digit, `0x` says that it is
hexadecimal, and any other leading zero that it is octal. -/
def numeral? : List Char → Option Nat
  | '0' :: x :: rest =>
    if x = 'x' || x = 'X' then
      if rest.isEmpty then none else ofDigits? 16 0 rest
    else ofDigits? 8 0 (x :: rest)
  | [] => none
  | cs => ofDigits? 10 0 cs

/-- The four bytes that the numbers of an address stand for: every number but the last is one
byte, and the last one takes what room is left. -/
def ofNumerals? : Nat → List Nat → Option Nat
  | room, [n] => if n < room then some n else none
  | room, n :: rest =>
    if n < 256 then do
      let low ← ofNumerals? (room / 256) rest
      return n * (room / 256) + low
    else none
  | _, [] => none

/-- The address in a text of numbers with points between them. -/
def ofNumbers? (host : String) : Option Address := do
  let parts := host.toList.splitOn '.'
  if 4 < parts.length then none
  let numbers ← parts.mapM numeral?
  return .short (UInt32.ofNat (← ofNumerals? 0x100000000 numbers))

/-- The address of a host; the one name that is known is that of the machine itself. -/
def ofHost? (host : String) : Option Address :=
  if host.toList.map Char.toLower = "localhost".toList then some (.short 0x7f000001)
  else if host = "::1" || host = "[::1]" then some longLoopback
  else if host = "::" || host = "[::]" then some longAny
  else ofNumbers? host

/-! ### Writing -/

/-- The text of an address. -/
def text : Address → String
  | short bytes =>
    let byte (place : Nat) : String := toString (bytes.toNat / place % 256)
    String.intercalate "." [byte 0x1000000, byte 0x10000, byte 0x100, byte 1]
  | longLoopback => "::1"
  | longAny => "::"

/-! ### What addresses stand for -/

/-- Whether a machine that is on no network has an address: those of the loopback network, the
one that stands for all, and those that stand for groups of machines. -/
def isLocal : Address → Bool
  | short bytes =>
    let first := bytes.toNat / 0x1000000
    first = 127 || bytes = 0 || bytes = 0xffffffff || (224 ≤ first && first < 240)
  | longLoopback => true
  | longAny => true

/-- Whether one who listens at the first address stands in the way of one who wants to listen
at the second. -/
def overlaps : Address → Address → Bool
  | short a, short b => a = b || a = 0 || b = 0
  | longAny, _ => true
  | _, longAny => true
  | a, b => a = b

end Address

end ReservoirPlot.Extension
