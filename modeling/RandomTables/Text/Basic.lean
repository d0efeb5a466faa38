import RandomTables.Text.CodePoint

/-!
# Texts

A text is a list of code points. A string can stand wherever a text is expected; the other way
round, a text is a string only if every code point in it is a character.
-/
namespace RandomTables

/-- Code points in order. -/
abbrev Text := List CodePoint

namespace Text

def ofString (s : String) : Text := s.toList.map .char

instance : Coe String Text := ⟨ofString⟩

def ofChars (s : List Char) : Text := s.map .char

/-- The text that consists of copies of one code point. -/
def copies (n : Nat) (c : CodePoint) : Text := List.replicate n c

/-- The string that the text is, if it holds characters only. -/
def string? (t : Text) : Option String := (t.mapM CodePoint.char?).map String.ofList

def startsWith (t start : Text) : Bool := start.isPrefixOf t

def holds (t : Text) (c : CodePoint) : Bool := t.contains c

end Text
end RandomTables
