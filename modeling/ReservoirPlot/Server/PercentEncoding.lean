/-
ReservoirPlot/Server/PercentEncoding.lean

Bytes in paths.  A byte may be written as a percent sign and two hexadecimal
digits; a percent sign with anything else behind it stands for itself.
-/
import ReservoirPlot.Text.Escapes
import ReservoirPlot.Text.Utf8

namespace ReservoirPlot.PercentEncoding

/-- The character of a byte below 128, or another one that is no digit. -/
def asciiChar (b : UInt8) : Char := Char.ofNat b.toNat

/-- The byte that two characters give as its digits. -/
def byteOf? (high low : UInt8) : Option UInt8 := do
  let h ← Hexadecimal.value? (asciiChar high)
  let l ← Hexadecimal.value? (asciiChar low)
  return UInt8.ofNat (16 * h + l)

/-- The bytes that encoded bytes stand for. -/
def decodeBytes : List UInt8 → List UInt8
  | 0x25 :: high :: low :: rest =>
    match byteOf? high low with
    | some b => b :: decodeBytes rest
    | none => 0x25 :: decodeBytes (high :: low :: rest)
  | b :: rest => b :: decodeBytes rest
  | [] => []

/-- The text that an encoded text stands for, if its bytes are one. -/
def decode? (text : String) : Option String :=
  Utf8.decode? (decodeBytes (Utf8.encode text))

/-- Whether a byte may stand for itself: letters, digits, and four marks. -/
def isPlain (b : UInt8) : Bool :=
  (asciiChar b).isAlphanum || b = 0x2d || b = 0x2e || b = 0x5f || b = 0x7e

/-- A text with every other byte encoded. -/
def encode (text : String) : String :=
  String.ofList ((Utf8.encode text).flatMap fun b =>
    if isPlain b then [asciiChar b]
    else '%' :: Hexadecimal.digits 2 b.toNat)

end ReservoirPlot.PercentEncoding
