import RandomTables.Text.Range
import RandomTables.Text.WordTable

/-!
# Word characters

Letters and numerals of every script, and the low line. Names are built from them.
-/
namespace RandomTables.Text

/-- A letter or numeral of any script, or the low line. -/
def isWord (c : CodePoint) : Bool :=
  c.isAlphanum || c == '_' || (c.toNat ≥ 128 && inRanges wordRanges c)

/-- A letter of the Latin alphabet without marks, or the low line. -/
def isNameStart (c : CodePoint) : Bool := c.isAlpha || c == '_'

/-- A character that may stand inside a name. -/
def isNamePart (c : CodePoint) : Bool := isWord c || c == '-' || c == ' '

/-- A plain letter or low line, then word characters, hyphens and spaces. -/
def isName : Text → Bool
  | [] => false
  | c :: rest => isNameStart c && rest.all isNamePart

end RandomTables.Text
