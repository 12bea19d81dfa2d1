/-
ReservoirPlot/Server/MediaType.lean

Media types, as far as it takes to tell whether a request's body is meant to be
JSON.  A media type is a type and a subtype, and may be followed by parameters;
the subtype may end in a suffix after a plus sign.  Upper and lower case are the
same, and a text that breaks the grammar anywhere, also in a parameter, is no
media type at all.
-/

namespace ReservoirPlot.MediaType

/-- The characters of a token that are neither letters nor digits. -/
def tokenMarks : List Char := "!#$%&'*+-.^_\x60|~".toList

/-- Whether a character may stand in a token. -/
def isTokenChar (c : Char) : Bool :=
  c.isAlphanum || tokenMarks.contains c

/-- Whether a character may stand in a quoted value. -/
def isQuotedChar (c : Char) : Bool :=
  '\x1f' < c && c ≠ '\x7f'

/-- What follows the quotation mark that ends a quoted value, which holds at least one
character. -/
def afterQuoted? (cs : List Char) : Option (List Char) :=
  match cs with
  | [] => none
  | first :: rest =>
    if isQuotedChar first then
      let inner := rest.takeWhile fun c => isQuotedChar c && c ≠ '"'
      match rest.drop inner.length with
      | '"' :: behind => some behind
      | _ => none
    else none

/-- What follows the value of a parameter: nothing, or the text behind a semicolon. -/
def afterValue? (cs : List Char) : Option (List Char) :=
  match cs with
  | '"' :: quoted => do
    match (← afterQuoted? quoted).dropWhile (· = ' ') with
    | [] => some []
    | ';' :: behind => some behind
    | _ => none
  | _ =>
    let value := cs.takeWhile isTokenChar
    match cs.drop value.length with
    | [] => some []
    | ';' :: behind => if value.isEmpty then none else some behind
    | _ => none

/-- Whether a text is a sequence of parameters.  Every parameter takes a character, so the
length of the text bounds their number. -/
def areParameters : Nat → List Char → Bool
  | 0, cs => cs.isEmpty
  | n + 1, cs =>
    match cs.dropWhile (· = ' ') with
    | [] => true
    | cs =>
      let name := cs.takeWhile isTokenChar
      match cs.drop name.length with
      | '=' :: value =>
        if name.isEmpty then false
        else
          match afterValue? value with
          | some behind => areParameters n behind
          | none => false
      | _ => false

/-- Whether a subtype says JSON, by itself or by its suffix. -/
def saysJson (subtype : List Char) : Bool :=
  let suffixed := subtype.reverse.dropWhile (· ≠ '+')
  if suffixed.length ≤ 1 then subtype = "json".toList
  else
    let suffix := subtype.drop suffixed.length
    suffix = "json".toList || (suffixed.drop 1).reverse = "json".toList

/-- Whether a media type says that a body is JSON. -/
def isJson (text : String) : Bool :=
  let cs := text.toList.map Char.toLower
  let type := cs.takeWhile isTokenChar
  match cs.drop type.length with
  | '/' :: rest =>
    let subtype := rest.takeWhile isTokenChar
    let parameters :=
      match rest.drop subtype.length with
      | [] => true
      | ';' :: cs => !subtype.isEmpty && areParameters cs.length cs
      | _ => false
    type = "application".toList && saysJson subtype && parameters
      && cs.all fun c => c = '\t' || (' ' ≤ c && c < '\x7f')
  | _ => false

end ReservoirPlot.MediaType
