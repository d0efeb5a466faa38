import RandomTables.Text.Basic

/-!
# Tables of character ranges

A character class of the Unicode standard is kept as an array of ranges of code points, and a
character belongs to the class when one of the ranges holds it.
-/
namespace RandomTables.Text

/-- Some range of the table holds the character. -/
def inRanges (table : Array (Nat × Nat)) (c : CodePoint) : Bool :=
  table.any fun range => range.1 ≤ c.toNat && c.toNat ≤ range.2

end RandomTables.Text
