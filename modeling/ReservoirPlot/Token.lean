/-
ReservoirPlot/Token.lean

Fixed-width names.  A plot file names its classes, instances and variables in
byte fields of a fixed width, padded at the end.  A `Token` is such a field,
padding included: two tokens are equal when all their bytes are, so `FIELD`
padded with spaces and `FIELD` padded with NULs are different tokens although
they show the same text.

* `Token.padded` makes the token of a short name, cut at the width;
* `Token.trimmed` is the text of a token without its padding;
* `Token.fits` says when a token is the one of a given name.
-/
import ReservoirPlot.Text.Blank
import ReservoirPlot.Text.Escapes
import ReservoirPlot.Text.Utf8

namespace ReservoirPlot

/-- A byte field of the given width. -/
structure Token (width : Nat) where
  bytes : List UInt8
  length_eq : bytes.length = width
deriving DecidableEq, Repr

namespace Token

variable {width : Nat}

@[ext] theorem ext {a b : Token width} (h : a.bytes = b.bytes) : a = b := by
  cases a; cases b; cases h; rfl

attribute [simp] Token.length_eq

/-- The byte that fills the rest of a field. -/
def space : UInt8 := 0x20

/-! ### From a name to a token -/

/-- The first bytes, filled up with spaces to the width. -/
def pad (width : Nat) (bytes : List UInt8) : List UInt8 :=
  bytes.take width ++ List.replicate (width - bytes.length) space

theorem length_pad (width : Nat) (bytes : List UInt8) : (pad width bytes).length = width := by
  simp only [pad, List.length_append, List.length_take, List.length_replicate]; omega

/-- The token of a short name: its bytes, cut at the width or filled up with spaces. -/
def padded (width : Nat) (name : String) : Token width :=
  ⟨pad width (Utf8.encode name), length_pad _ _⟩

/-- The token with the given bytes, if there are as many as its width. -/
def ofBytes? (width : Nat) (bytes : List UInt8) : Option (Token width) :=
  if h : bytes.length = width then some ⟨bytes, h⟩ else none

@[simp] theorem ofBytes?_bytes (t : Token width) : ofBytes? width t.bytes = some t := by
  simp [ofBytes?, t.length_eq]

/-! ### From a token to text -/

/-- Whether a byte counts as padding at the end of a field. -/
def isPadding (b : UInt8) : Bool :=
  b = space || b = 0

/-- The bytes before the padding. -/
def content (t : Token width) : List UInt8 :=
  Text.dropEnd isPadding t.bytes

/-- The text before the padding; pieces that are not UTF-8 are replaced. -/
def trimmed (t : Token width) : String :=
  Utf8.decodeLossy t.content

/-- The whole field, padding included, in quotes. -/
def quoted (t : Token width) : String :=
  Text.quoted (Utf8.decodeLossy t.bytes)

/-! ### Comparison -/

/-- Whether the token is that of the name; a name longer than the field is that of none. -/
def fits (t : Token width) (name : String) : Bool :=
  t = padded width name && (Utf8.encode name).length ≤ width

/-- A token that fits a name is the token made from it. -/
theorem eq_padded_of_fits {t : Token width} {name : String} (h : t.fits name) :
    t = padded width name := by
  simp only [fits, Bool.and_eq_true, decide_eq_true_eq] at h
  exact h.1

/-- No two tokens fit the same name. -/
theorem eq_of_fits {a b : Token width} {name : String} (ha : a.fits name) (hb : b.fits name) :
    a = b :=
  (eq_padded_of_fits ha).trans (eq_padded_of_fits hb).symm

/-- The order of the bytes, padding included. -/
def order (a b : Token width) : Ordering :=
  List.compareLex (fun x y => compare x.toNat y.toNat) a.bytes b.bytes

end Token

/-- The name of a class, such as `FIELD` or `WELL`. -/
abbrev ClassName := Token 8

/-- The name of an instance of a class, such as a single well. -/
abbrev InstanceName := Token 8

/-- The code of a variable, such as `QOP` for the oil production rate. -/
abbrev VariableCode := Token 4

/-- The tag of a unit system. -/
abbrev UnitTag := Token 6

end ReservoirPlot
