/-
ReservoirPlot/Series/Keywords.lean

Summary keywords.  A keyword table gives the keyword under which a variable
appears in a summary.  There is a fixed table for the variables of the whole
field; options may set further entries, and the entry set last counts.  The options
also say which samples of a plot become a series.
-/
import ReservoirPlot.Token

namespace ReservoirPlot

/-- Keywords of variable codes, the entry set last in front. -/
structure KeywordTable where
  entries : List (VariableCode × String)
deriving DecidableEq, Repr

namespace KeywordTable

/-- The table without entries. -/
def empty : KeywordTable := ⟨[]⟩

/-- The keyword of a code: that of the entry set last. -/
def keyword? (t : KeywordTable) (code : VariableCode) : Option String :=
  (t.entries.find? fun entry => entry.1 = code).map Prod.snd

/-- The table with one entry set, under the token made from a code's text. -/
def set (t : KeywordTable) (code keyword : String) : KeywordTable :=
  ⟨(Token.padded 4 code, keyword) :: t.entries⟩

/-- The table with some entries set in turn. -/
def extend (t : KeywordTable) (extra : List (String × String)) : KeywordTable :=
  extra.foldl (fun t entry => t.set entry.1 entry.2) t

/-- The variables of the field and their keywords. -/
def fieldEntries : List (String × String) :=
  [("QOP", "FOPR"), ("QWP", "FWPR"), ("QGP", "FGPR"), ("GOR", "FGOR"), ("WCUT", "FWCT"),
   ("COP", "FOPT"), ("CWP", "FWPT"), ("CGP", "FGPT"), ("QWI", "FWIR"), ("QGI", "FGIR"),
   ("CWI", "FWIT"), ("CGI", "FGIT"), ("QPP", "FCPR"), ("CPP", "FCPC")]

/-- The fixed table for the variables of the field. -/
def field : KeywordTable :=
  empty.extend fieldEntries

@[simp] theorem keyword?_empty (code : VariableCode) : empty.keyword? code = none := rfl

/-- Setting an entry decides the keyword of its own code and of no other. -/
theorem keyword?_set (t : KeywordTable) (text keyword : String) (code : VariableCode) :
    (t.set text keyword).keyword? code
      = if Token.padded 4 text = code then some keyword else t.keyword? code := by
  by_cases h : Token.padded 4 text = code <;> simp [keyword?, set, h]

@[simp] theorem extend_nil (t : KeywordTable) : t.extend [] = t := rfl

@[simp] theorem extend_cons (t : KeywordTable) (entry : String × String)
    (rest : List (String × String)) :
    t.extend (entry :: rest) = (t.set entry.1 entry.2).extend rest := rfl

end KeywordTable

/-! ### Options -/

/-- The class and the instance to convert, and keywords beyond the fixed ones. -/
structure SeriesOptions where
  className : String
  instanceName : String
  /-- Keywords by variable code, ascending by code and each code once. -/
  keywords : List (String × String)
deriving DecidableEq, Repr

namespace SeriesOptions

/-- The class of the field as a whole. -/
def defaultClass : String := "FIELD"

/-- The instance of the field as a whole. -/
def defaultInstance : String := "NETWORK"

/-- The options for the field as a whole. -/
def default : SeriesOptions := ⟨defaultClass, defaultInstance, []⟩

/-- The fixed keywords and those of the options. -/
def table (o : SeriesOptions) : KeywordTable :=
  KeywordTable.field.extend o.keywords

end SeriesOptions

end ReservoirPlot
