/-
ReservoirPlot/Plot/DecodeError.lean

Why a byte stream is not a plot.  Each cause carries what its message names; the
wording is in `DecodeError.message` alone.
-/
import ReservoirPlot.Token

namespace ReservoirPlot

/-- A fault in the framing of a plot file. -/
inductive Malformation
  /-- The stream ended, or failed, before the type tag was complete. -/
  | unverified
  | wrongTypeTag (found : Token 12)
  | negativeField (value : Int32)
  | negativeClassCount (value : Int32)
  | negativeVariableCount (value : Int32)
  | unknownClass (name : ClassName) (offset : Nat)
  | negativeItemCount (value : Int32) (className : ClassName)
deriving DecidableEq, Repr

/-- Why a byte stream could not be decoded. -/
inductive DecodeError
  | malformed (cause : Malformation)
  | unrecognizedUnitSystem (tag : UnitTag)
  /-- The bytes ran out at the offset, while the named field was read. -/
  | unexpectedEnd (offset : Nat) (field : String)
  /-- The source of the bytes failed. -/
  | unreadable
deriving DecidableEq, Repr

/-- The text that describes the fault. -/
def Malformation.message : Malformation → String
  | unverified => "could not verify file type"
  | wrongTypeTag found => "could not verify file type, found " ++ found.quoted
  | negativeField value => s!"negative header field {value.toInt}, corrupted file"
  | negativeClassCount value => s!"negative class count {value.toInt}"
  | negativeVariableCount value => s!"negative variable count {value.toInt}"
  | unknownClass name offset => s!"unknown class {name.quoted} at offset {offset}"
  | negativeItemCount value className =>
    s!"negative item count {value.toInt} in {className.trimmed} block"

/-- The text of the error. -/
def DecodeError.message : DecodeError → String
  | malformed cause => "bad header: " ++ cause.message
  | unrecognizedUnitSystem tag =>
    "unrecognized unit system: " ++ Text.quoted (Utf8.decodeLossy tag.bytes)
  | unexpectedEnd offset field =>
    s!"unexpected end of file at offset {offset} while reading {field}"
  | unreadable => "the data could not be read"

end ReservoirPlot
