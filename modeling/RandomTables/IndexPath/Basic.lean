import RandomTables.Outcome.Basic
import RandomTables.Text.Blank
import RandomTables.Text.Digit
import RandomTables.Text.Number
import RandomTables.Text.Quoted
import RandomTables.Text.Split

/-!
# Index paths

An index path leads from the root of an outcome to a part of it. In a table the first index selects
a row and the next one a node in that row; in a bundle the first index selects a repeat and the next
one a node of that repeat. From a node the path goes on in the same way.
-/
namespace RandomTables

/-- A way down an outcome. -/
abbrev IndexPath := List Int

namespace IndexPath

/-- The wording for a path that leads nowhere. -/
def outOfRangeMessage (path : IndexPath) : Text :=
  "Index path " ++ Text.integers path ++ " is out of range"

/-- The numbers between commas; pieces that are blank do not count. -/
def numbers? (s : Text) : Option IndexPath :=
  ((Text.split ',' s).filter fun piece => !Text.allBlank piece).mapM Text.integer?

/-- The index path that a text denotes: numbers between commas or points, with or without brackets
around them. -/
def read? (s : Text) : Option IndexPath :=
  let isBracket : CodePoint → Bool := fun c => c == '[' || c == ']'
  let inner := ((Text.trim s).dropWhile isBracket).reverse.dropWhile isBracket |>.reverse
  numbers? (inner.map fun c => if c = .char '.' then .char ',' else c)

def readMessage (s : Text) : Text :=
  "invalid index path: " ++ Text.quoted s

end IndexPath

/-- What an index path leads to: a node, a row of a table, or the nodes of a repeat of a bundle. -/
inductive Piece where
  | node (node : Node)
  | row (row : RowRoll)
  | nodes (nodes : List Node)

/-- Where an index path leads: to a node, or to a place in a table or bundle. -/
inductive Target where
  | node (node : Node)
  | row (parent : TableRoll) (index : Nat) (row : RowRoll)
  | nodes (parent : BundleRoll) (index : Nat) (nodes : List Node)

namespace Target

def piece : Target → Piece
  | node found => .node found
  | row _ _ found => .row found
  | nodes _ _ found => .nodes found

def kindName : Target → Text
  | node _ => "node"
  | row .. => "row"
  | nodes .. => "repeat"

def path : Target → Text
  | node found => found.path
  | row parent _ _ => parent.table.path
  | nodes parent _ _ => parent.bundle.path

/-- The place of the target in the table or bundle that holds it. -/
def index? : Target → Option Nat
  | node _ => none
  | row _ index _ => some index
  | nodes _ index _ => some index

def parent? : Target → Option Node
  | node _ => none
  | row parent _ _ => some (.table parent)
  | nodes parent _ _ => some (.bundle parent)

end Target
end RandomTables
