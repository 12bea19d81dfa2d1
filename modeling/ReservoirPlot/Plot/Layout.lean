/-
ReservoirPlot/Plot/Layout.lean

The fixed parts of a plot file.  A file is a header, a catalog and a sequence of
blocks, closed by a stop tag:

* header: lead, type tag, four version blocks, unit tag, padding, eight integers;
* catalog: separator, class names, separator, variable counts, separator, then
  for each class the name of its time variable, its variable codes and a
  separator;
* block: class name, separator, five words, items, separator, where an item is a
  separator, an instance name, padding and one value per variable of the class.

The reader and the writer of this layout share the sizes and tags below.
-/
import ReservoirPlot.Token

namespace ReservoirPlot.Layout

/-- The text of the type tag. -/
def typeTagText : String := "PLOT  BIN   "

/-- The tag that says that a file is a plot. -/
def typeTag : Token 12 := Token.padded 12 typeTagText

/-- The class name that ends the blocks. -/
def stopTag : ClassName := Token.padded 8 "STOP"

/-- The bytes before the type tag. -/
def leadSize : Nat := 4

/-- The version of the file, the simulator and its versions. -/
def versionBlockCount : Nat := 4

/-- The bytes of one version block. -/
def versionBlockSize : Nat := 6

/-- The bytes between the unit tag and the integers of the header. -/
def headerPaddingSize : Nat := 794

/-- The bytes between two sections. -/
def separatorSize : Nat := 8

/-- The bytes of the name of the time variable, which is not used. -/
def timeNameSize : Nat := 4

/-- The words at the head of a block. -/
def blockWordCount : Nat := 5

/-- The unused bytes between the name of an instance and its values. -/
def itemPaddingSize : Nat := 64

/-- Where the integers of the header begin. -/
def fieldsOffset : Nat :=
  leadSize + 12 + versionBlockCount * versionBlockSize + 6 + headerPaddingSize

/-- The bytes of a header. -/
def headerSize : Nat := fieldsOffset + 4 * 8

end ReservoirPlot.Layout
