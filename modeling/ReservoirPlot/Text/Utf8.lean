/-
ReservoirPlot/Text/Utf8.lean

Bytes and text.  A plot file holds fixed-width byte fields that are meant to
be read as text but need not be: padding may be NUL, a name may be cut in the
middle of a character, and a damaged file may hold anything.  Two readings are
needed:

* `decode?` accepts well-formed UTF-8 only;
* `decodeLossy` accepts every byte string and puts U+FFFD in place of each
  ill-formed piece, where a piece is the longest run of bytes that begins some
  character (or one byte, when none does).

Both are read off one list, `pieces`, which cuts the bytes into characters and
ill-formed pieces.  So the two readings agree by construction wherever there is
no ill-formed piece: `decodeLossy_of_decode?`.
-/

namespace ReservoirPlot.Utf8

/-! ### Writing -/

/-- The bytes of a text, one character after the other. -/
def encode (s : String) : List UInt8 :=
  s.toList.flatMap String.utf8EncodeChar

@[simp] theorem encode_empty : encode "" = [] := rfl

/-! ### One character -/

/-- The bytes from `low` to `high`, both included. -/
structure Span where
  low : UInt8
  high : UInt8

/-- Whether a byte lies in the span. -/
def Span.holds (r : Span) (b : UInt8) : Bool :=
  r.low ≤ b && b ≤ r.high

/-- The bytes that may continue a character when the lead byte does not restrict
them further. -/
def continuation : Span := ⟨0x80, 0xBF⟩

/-- What must follow a lead byte, byte by byte, or `none` when no character
begins with it.  The narrower spans after E0, ED, F0 and F4 keep out overlong
forms, surrogates and numbers above U+10FFFF. -/
def followers (lead : UInt8) : Option (List Span) :=
  if lead < 0x80 then some []
  else if lead < 0xC2 then none
  else if lead < 0xE0 then some [continuation]
  else if lead = 0xE0 then some [⟨0xA0, 0xBF⟩, continuation]
  else if lead = 0xED then some [⟨0x80, 0x9F⟩, continuation]
  else if lead < 0xF0 then some [continuation, continuation]
  else if lead = 0xF0 then some [⟨0x90, 0xBF⟩, continuation, continuation]
  else if lead < 0xF4 then some [continuation, continuation, continuation]
  else if lead = 0xF4 then some [⟨0x80, 0x8F⟩, continuation, continuation]
  else none

/-- The longest run at the front of the bytes that fits the spans in order. -/
def fitting : List Span → List UInt8 → List UInt8
  | r :: rs, b :: bs => if r.holds b then b :: fitting rs bs else []
  | _, _ => []

/-- The code point of a lead byte and its followers: the payload bits of the
lead byte, then six bits from each follower. -/
def codePoint (lead : UInt8) (run : List UInt8) : Nat :=
  let payload := if run.isEmpty then lead.toNat else lead.toNat % Nat.pow 2 (6 - run.length)
  run.foldl (fun n b => n * 64 + b.toNat % 64) payload

/-- The character at the front of `lead :: rest`, if there is one, and how many
bytes of `rest` belong to the piece. -/
def front (lead : UInt8) (rest : List UInt8) : Option Char × Nat :=
  match followers lead with
  | none => (none, 0)
  | some spans =>
    let run := fitting spans rest
    if run.length = spans.length then (some (Char.ofNat (codePoint lead run)), run.length)
    else (none, run.length)

/-! ### The pieces of a byte string -/

/-- The bytes cut into characters and ill-formed pieces (`none`). -/
def pieces : List UInt8 → List (Option Char)
  | [] => []
  | lead :: rest =>
    let piece := front lead rest
    piece.1 :: pieces (rest.drop piece.2)
termination_by bytes => bytes.length
decreasing_by simp only [List.length_drop, List.length_cons]; omega

@[simp] theorem pieces_nil : pieces [] = [] := by
  simp [pieces]

theorem pieces_cons (lead : UInt8) (rest : List UInt8) :
    pieces (lead :: rest)
      = (front lead rest).1 :: pieces (rest.drop (front lead rest).2) := by
  rw [pieces]

/-! ### Reading -/

/-- The characters of some pieces, when each piece is one. -/
def characters? : List (Option Char) → Option (List Char)
  | [] => some []
  | none :: _ => none
  | some c :: rest => (characters? rest).map (c :: ·)

/-- The text of well-formed bytes. -/
def decode? (bytes : List UInt8) : Option String :=
  (characters? (pieces bytes)).map String.ofList

/-- The text of any bytes, with U+FFFD for each ill-formed piece. -/
def decodeLossy (bytes : List UInt8) : String :=
  String.ofList ((pieces bytes).map fun piece => piece.getD '\uFFFD')

theorem getD_of_characters? (other : Char) {ps : List (Option Char)} {cs : List Char}
    (h : characters? ps = some cs) : ps.map (fun piece => piece.getD other) = cs := by
  induction ps generalizing cs with
  | nil => simpa [characters?] using h
  | cons piece rest ih =>
    cases piece with
    | none => simp [characters?] at h
    | some c =>
      simp only [characters?, Option.map_eq_some_iff] at h
      obtain ⟨tail, htail, rfl⟩ := h
      simp [ih htail]

/-- The two readings agree on well-formed bytes. -/
theorem decodeLossy_of_decode? {bytes : List UInt8} {s : String}
    (h : decode? bytes = some s) : decodeLossy bytes = s := by
  simp only [decode?, Option.map_eq_some_iff] at h
  obtain ⟨cs, hcs, rfl⟩ := h
  simp [decodeLossy, getD_of_characters? _ hcs]

end ReservoirPlot.Utf8
