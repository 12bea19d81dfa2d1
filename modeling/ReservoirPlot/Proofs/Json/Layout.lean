/-
ReservoirPlot/Proofs/Json/Layout.lean

How a value is laid out in a text.  `Lays` says it by the constructors of the value,
apart from the printer: words as they are, numbers by `Numeral`, strings between quotes
with their escapes, and the items of an array or an object one per line,

    [
      item,
      item
    ]

each line with two blanks for every array or object around it.  The printer writes
every value so (`lays_prettyAt`), by recursion on the value.

Main result: `lays_prettyAt`.
-/
import ReservoirPlot.Proofs.Json.Numerals

namespace ReservoirPlot.Json

open Binary

/-! ### Layouts -/

/-- How a character stands in a string. -/
inductive Escapes : Char → List Char → Prop
  | quote : Escapes '"' ['\\', '"']
  | backslash : Escapes '\\' ['\\', '\\']
  | backspace : Escapes '\x08' ['\\', 'b']
  | formFeed : Escapes '\x0c' ['\\', 'f']
  | lineFeed : Escapes '\n' ['\\', 'n']
  | carriageReturn : Escapes '\r' ['\\', 'r']
  | tab : Escapes '\t' ['\\', 't']
  | control {c : Char} (hcontrol : c.toNat < 0x20)
    (hother : c ∉ ['\x08', '\x0c', '\n', '\r', '\t']) :
    Escapes c ['\\', 'u', '0', '0', Nat.digitChar (c.toNat / 16), Nat.digitChar (c.toNat % 16)]
  | plain {c : Char} (hplain : 0x20 ≤ c.toNat) (hother : c ∉ ['"', '\\']) : Escapes c [c]

/-- How a string stands in a text. -/
def Quotes (s : String) (text : List Char) : Prop :=
  ∃ parts, List.Forall₂ Escapes s.toList parts ∧ text = '"' :: parts.flatten ++ ['"']

/-- How a number stands in a text. -/
inductive Numeral : Number → List Char → Prop
  | integer (n : Int) :
    Numeral (.integer n) ((if n < 0 then ['-'] else []) ++ Nat.toDigits 10 n.natAbs)
  | single {x : Binary32} {text : List Char} (h : Shows 23 8 (-6) 12 x.bits.toNat text) :
    Numeral (.single x) text
  | double {x : Binary64} {text : List Char} (h : Shows 52 11 (-5) 15 x.bits.toNat text) :
    Numeral (.double x) text
  | decimal (negative : Bool) (d : Decimal) :
    Numeral (.decimal negative d) ((if negative then ['-'] else []) ++ Nat.toDigits 10 d.coefficient
      ++ ['e'] ++ (if d.exponent < 0 then ['-'] else []) ++ Nat.toDigits 10 d.exponent.natAbs)

/-- A text on a line of its own, at a depth of nesting. -/
def onLine (depth : Nat) (text : List Char) : List Char :=
  '\n' :: List.replicate (2 * depth) ' ' ++ text

mutual

/-- How a value stands in a text, at a depth of nesting. -/
inductive Lays : Nat → Json → List Char → Prop
  | null {depth : Nat} : Lays depth .null "null".toList
  | true {depth : Nat} : Lays depth (.bool true) "true".toList
  | false {depth : Nat} : Lays depth (.bool false) "false".toList
  | number {depth : Nat} {n : Number} {text : List Char} (h : Numeral n text) :
    Lays depth (.number n) text
  | string {depth : Nat} {s : String} {text : List Char} (h : Quotes s text) :
    Lays depth (.string s) text
  | emptyArray {depth : Nat} : Lays depth (.array []) ['[', ']']
  | array {depth : Nat} {items : List Json} {lines : List (List Char)} (hne : items ≠ [])
    (hitems : LayItems (depth + 1) items lines) :
    Lays depth (.array items) ('[' :: [','].intercalate lines ++ onLine depth [']'])
  | emptyObject {depth : Nat} : Lays depth (.object []) ['\x7b', '\x7d']
  | object {depth : Nat} {members : List (String × Json)} {lines : List (List Char)}
    (hne : members ≠ []) (hmembers : LayMembers (depth + 1) members lines) :
    Lays depth (.object members) ('\x7b' :: [','].intercalate lines ++ onLine depth ['\x7d'])

/-- The lines of the items of an array. -/
inductive LayItems : Nat → List Json → List (List Char) → Prop
  | nil {depth : Nat} : LayItems depth [] []
  | cons {depth : Nat} {item : Json} {rest : List Json} {text : List Char}
    {lines : List (List Char)} (hitem : Lays depth item text)
    (hrest : LayItems depth rest lines) :
    LayItems depth (item :: rest) (onLine depth text :: lines)

/-- The lines of the members of an object. -/
inductive LayMembers : Nat → List (String × Json) → List (List Char) → Prop
  | nil {depth : Nat} : LayMembers depth [] []
  | cons {depth : Nat} {name : String} {value : Json} {rest : List (String × Json)}
    {nameText text : List Char} {lines : List (List Char)} (hname : Quotes name nameText)
    (hvalue : Lays depth value text) (hrest : LayMembers depth rest lines) :
    LayMembers depth ((name, value) :: rest)
      (onLine depth (nameText ++ [':', ' '] ++ text) :: lines)

end

/-! ### Strings and numbers -/

/-- The code of a control character, filled up to four digits. -/
theorem zeros_append_toDigits : ∀ n < 0x20,
    List.replicate (4 - (Nat.toDigits 16 n).length) '0' ++ Nat.toDigits 16 n
      = ['0', '0', Nat.digitChar (n / 16), Nat.digitChar (n % 16)] := by
  decide

theorem escapes_escapeChar (c : Char) : Escapes c (escapeChar c) := by
  rw [escapeChar]
  split_ifs with hquote hbackslash hbackspace hformFeed hlineFeed hreturn htab hcontrol
  · exact hquote ▸ .quote
  · exact hbackslash ▸ .backslash
  · exact hbackspace ▸ .backspace
  · exact hformFeed ▸ .formFeed
  · exact hlineFeed ▸ .lineFeed
  · exact hreturn ▸ .carriageReturn
  · exact htab ▸ .tab
  · rw [controlEscape, List.append_assoc, zeros_append_toDigits _ hcontrol]
    exact .control hcontrol (by simp [hbackspace, hformFeed, hlineFeed, hreturn, htab])
  · exact .plain (Nat.le_of_not_lt hcontrol) (by simp [hquote, hbackslash])

theorem quotes_stringText (s : String) : Quotes s (stringText s).toList := by
  refine ⟨s.toList.map escapeChar, ?_, ?_⟩
  · rw [List.forall₂_map_right_iff, List.forall₂_same]
    exact fun c _ => escapes_escapeChar c
  · rw [stringText, String.toList_ofList, List.flatMap_def]

theorem toList_toString_nat (n : Nat) : (toString n).toList = Nat.toDigits 10 n := by
  rw [Nat.toString_eq_ofList_toDigits, String.toList_ofList]

theorem toList_toString_int (n : Int) :
    (toString n).toList = (if n < 0 then ['-'] else []) ++ Nat.toDigits 10 n.natAbs := by
  rw [Int.toString_eq_repr, Int.repr_eq_if]
  split
  · next h =>
    have habs : n.toNat = n.natAbs := by omega
    rw [if_neg (Int.not_lt.mpr h), Nat.repr_eq_ofList_toDigits, String.toList_ofList,
      List.nil_append, habs]
  · next h =>
    have habs : (-n).toNat = n.natAbs := by omega
    rw [if_pos (Int.not_le.mp h), Nat.repr_eq_ofList_toDigits, String.toList_append,
      String.toList_ofList, String.toList_ofList, habs]

theorem numeral_text : ∀ n : Number, Numeral n n.text.toList
  | .integer n => by
    rw [Number.text, toList_toString_int]
    exact .integer n
  | .single x => .single (shows_datumText Binary.single (by decide) (by decide) (by decide) _)
  | .double x => .double (shows_datumText Binary.double (by decide) (by decide) (by decide) _)
  | .decimal negative d => by
    rw [Number.text, String.toList_append, String.toList_append, String.toList_append,
      toList_toString_nat, toList_toString_int, ← List.append_assoc]
    cases negative with
    | false => exact .decimal false d
    | true => exact .decimal true d

/-! ### Lines -/

theorem toList_pushn (s : String) (c : Char) (n : Nat) :
    (s.pushn c n).toList = s.toList ++ List.replicate n c := by
  rw [String.pushn_eq_repeat_push]
  induction n with
  | zero => rw [List.replicate_zero, List.append_nil, Nat.repeat]
  | succ n ih => rw [Nat.repeat, String.toList_push, ih, List.replicate_succ', List.append_assoc]

/-- A text that leads every item leads them all at once. -/
theorem append_intercalate (lead item : List Char) (rest : List (List Char)) :
    lead ++ ([','] ++ lead).intercalate (item :: rest)
      = [','].intercalate ((item :: rest).map (lead ++ ·)) := by
  induction rest generalizing item with
  | nil => rw [List.intercalate_singleton, List.map_singleton, List.intercalate_singleton]
  | cons next rest ih =>
    rw [List.intercalate_cons_cons, List.map_cons, List.map_cons, List.intercalate_cons_cons,
      ← List.map_cons, ← ih]
    simp only [List.append_assoc]

/-- Items between brackets stand on lines of their own. -/
theorem toList_block (opening closing : String) (depth : Nat) {items : List String}
    (hne : items ≠ []) : (block opening closing depth items).toList
      = opening.toList ++ [','].intercalate (items.map fun item => onLine (depth + 1) item.toList)
        ++ onLine depth closing.toList := by
  obtain ⟨item, rest, rfl⟩ := List.exists_cons_of_ne_nil hne
  have hcomma : (",").toList = [','] := rfl
  have hbreak : ("\n").toList = ['\n'] := rfl
  have hindentation : ∀ depth, (indentation depth).toList = List.replicate (2 * depth) ' ' := by
    intro depth
    rw [indentation, toList_pushn, String.toList_empty, List.nil_append]
  rw [block, if_neg (by simp)]
  simp only [String.toList_append, String.toList_intercalate, hcomma, hbreak, hindentation]
  rw [List.append_assoc opening.toList, List.map_cons, append_intercalate, ← List.map_cons,
    List.map_map, List.append_assoc, List.append_assoc, ← List.append_assoc ['\n']]
  rfl

theorem toList_block_nil (opening closing : String) (depth : Nat) :
    (block opening closing depth []).toList = opening.toList ++ closing.toList := by
  rw [block, if_pos List.isEmpty_nil, String.toList_append]

/-! ### Values -/

theorem prettyItems_ne_nil {depth : Nat} {items : List Json} (h : items ≠ []) :
    prettyItems depth items ≠ [] := by
  cases items with
  | nil => exact absurd rfl h
  | cons item rest => exact List.cons_ne_nil _ _

theorem prettyMembers_ne_nil {depth : Nat} {members : List (String × Json)} (h : members ≠ []) :
    prettyMembers depth members ≠ [] := by
  cases members with
  | nil => exact absurd rfl h
  | cons member rest => exact List.cons_ne_nil _ _

mutual

/-- **The printer lays every value out.** -/
theorem lays_prettyAt (depth : Nat) : ∀ j : Json, Lays depth j (j.prettyAt depth).toList
  | .null => .null
  | .bool true => .true
  | .bool false => .false
  | .number n => .number (numeral_text n)
  | .string s => .string (quotes_stringText s)
  | .array [] => by
    rw [prettyAt, prettyItems, toList_block_nil]
    exact .emptyArray
  | .array (item :: rest) => by
    rw [prettyAt, toList_block _ _ _ (prettyItems_ne_nil (List.cons_ne_nil _ _))]
    exact .array (List.cons_ne_nil _ _) (layItems_prettyItems (depth + 1) (item :: rest))
  | .object [] => by
    rw [prettyAt, prettyMembers, toList_block_nil]
    exact .emptyObject
  | .object (member :: rest) => by
    rw [prettyAt, toList_block _ _ _ (prettyMembers_ne_nil (List.cons_ne_nil _ _))]
    exact .object (List.cons_ne_nil _ _) (layMembers_prettyMembers (depth + 1) (member :: rest))

theorem layItems_prettyItems (depth : Nat) : ∀ items : List Json,
    LayItems depth items ((prettyItems depth items).map fun item => onLine depth item.toList)
  | [] => .nil
  | item :: rest => .cons (lays_prettyAt depth item) (layItems_prettyItems depth rest)

theorem layMembers_prettyMembers (depth : Nat) : ∀ members : List (String × Json),
    LayMembers depth members
      ((prettyMembers depth members).map fun member => onLine depth member.toList)
  | [] => .nil
  | (name, value) :: rest => by
    rw [prettyMembers, List.map_cons, String.toList_append, String.toList_append]
    exact .cons (quotes_stringText name) (lays_prettyAt depth value)
      (layMembers_prettyMembers depth rest)

end

example : (Json.object [("values", .array [.single ⟨0x41480000⟩, .null])]).pretty
    = "\x7b\n  \"values\": [\n    12.5,\n    null\n  ]\n\x7d" := by
  decide +kernel

end ReservoirPlot.Json
