import RandomTables.IndexPath.Basic
import RandomTables.Outcome.Text

/-!
# The outline of an outcome

The outline shows a tree with one line for every row and every repeat, which carries the index path
that leads to it, below a line with the title of the table or bundle. The lines are collected first
and then printed.
-/
namespace RandomTables

/-- What an outline shows of a row or a repeat: where it lies, and what it is. -/
structure OutlineMark where
  level : Int
  path : IndexPath
  piece : Piece

/-- A line of an outline: the title of a node, a row or repeat with its index path, or the extra
text of a table. -/
inductive OutlineLine where
  | title (level : Int) (node : Node)
  | part (mark : OutlineMark)
  | extra (level : Int) (roll : TableRoll)

mutual

/-- The lines of a node that an index path leads to. -/
def Node.lines (level : Int) (path : IndexPath) : Node → List OutlineLine
  | node@(.table ⟨ref, table, rows, extra, extraNodes, inputs⟩) =>
    .title level node :: (linesOfRows level path 0 rows ++
      if extra.isEmpty then [] else [.extra level ⟨ref, table, rows, extra, extraNodes, inputs⟩])
  | node@(.bundle ⟨_, _, repeats⟩) => .title level node :: linesOfRepeats level path 0 repeats
  | node@(.leaf _ _) => [.title level node]

/-- The lines of rows, the first of which is row number `index`. -/
def linesOfRows (level : Int) (path : IndexPath) (index : Nat) : List RowRoll → List OutlineLine
  | [] => []
  | row@(.missing _) :: rest =>
    .part ⟨level, path ++ [(index : Int)], .row row⟩ :: linesOfRows level path (index + 1) rest
  | row@(.found ⟨_, _, _, nested, _, _⟩) :: rest =>
    .part ⟨level, path ++ [(index : Int)], .row row⟩ ::
      (linesOfNodes (level + 2) (path ++ [(index : Int)]) 0 nested ++
        linesOfRows level path (index + 1) rest)

/-- The lines of repeats, the first of which is repeat number `index`. -/
def linesOfRepeats (level : Int) (path : IndexPath) (index : Nat) :
    List (List Node) → List OutlineLine
  | [] => []
  | nodes :: rest =>
    .part ⟨level, path ++ [(index : Int)], .nodes nodes⟩ ::
      (linesOfNodes (level + 2) (path ++ [(index : Int)]) 0 nodes ++
        linesOfRepeats level path (index + 1) rest)

/-- The lines of nodes, the first of which is node number `index`. -/
def linesOfNodes (level : Int) (path : IndexPath) (index : Nat) : List Node → List OutlineLine
  | [] => []
  | node :: rest =>
    node.lines level (path ++ [(index : Int)]) ++ linesOfNodes level path (index + 1) rest

end

/-- The blanks in front of a line; levels below zero are not indented. -/
def outlinePad (level : Int) : Text := Text.copies (2 * level.toNat) ' '

/-- A row is printed with its total, and without one if no row covers the total. -/
def OutlineMark.text (mark : OutlineMark) : Text :=
  outlinePad mark.level ++ "  " ++ Text.integers mark.path ++
    match mark.piece with
    | .row (.missing total) => " " ++ (RowRoll.missing total).text
    | .row (.found row) => " (" ++ Text.integer row.total ++ ") " ++ (RowRoll.found row).text
    | _ => ""

def OutlineLine.text : OutlineLine → Text
  | title level (.leaf ref path) => outlinePad level ++ ref.titleOr path ++ " (not rolled)"
  | title level node => outlinePad level ++ node.title
  | part mark => mark.text
  | extra level roll =>
    outlinePad level ++ "  " ++ Resolved.writeAll (inlineTexts roll.extraNodes) roll.extra

def Node.outline (level : Int) (node : Node) : Text :=
  Text.joinWith "\n" ((node.lines level []).map OutlineLine.text)

end RandomTables
