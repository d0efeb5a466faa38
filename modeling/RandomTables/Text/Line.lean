import RandomTables.Text.Basic

/-!
# Lines

A text falls into lines at every line end; a carriage return and a line feed right after it are
one line end. The end of the last line may be missing, and no line follows it.
-/
namespace RandomTables.Text

def isLineEnd (c : CodePoint) : Bool :=
  let n := c.toNat
  (10 ≤ n && n ≤ 13) || (28 ≤ n && n ≤ 30) || n == 0x85 || n == 0x2028 || n == 0x2029

/-- The lines of a text whose first line starts with `begun`, held in reverse. -/
def linesFrom (begun : Text) : Text → List Text
  | [] => if begun.isEmpty then [] else [begun.reverse]
  | .char '\r' :: .char '\n' :: rest => begun.reverse :: linesFrom [] rest
  | c :: rest =>
    if isLineEnd c then begun.reverse :: linesFrom [] rest else linesFrom (c :: begun) rest

def lines (s : Text) : List Text := linesFrom [] s

/-- Every line end of a file, however it is written, becomes a line feed. -/
def unifyLineEnds : Text → Text
  | [] => []
  | .char '\r' :: .char '\n' :: rest => '\n' :: unifyLineEnds rest
  | c :: rest => (if c = '\r' then '\n' else c) :: unifyLineEnds rest

end RandomTables.Text
