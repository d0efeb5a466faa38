import RandomTables.Template.Component

/-!
# Definitions

A table selects one of its rows by a rolled total; a bundle is a list of references that are rolled
together. Both are registered under a path and have a title.
-/
namespace RandomTables

/-- The totals that a row is selected by, of which there is at least one. -/
structure RowRange where
  min : Int
  max : Int
  min_le_max : min ≤ max
  deriving Repr

namespace RowRange

/-- The range that holds one total only. -/
def single (n : Int) : RowRange := ⟨n, n, Int.le_refl n⟩

instance : Inhabited RowRange := ⟨single 0⟩

/-- The range between two bounds, if it holds anything. -/
def ofBounds? (min max : Int) : Option RowRange :=
  if h : min ≤ max then some ⟨min, max, h⟩ else none

/-- The wording for bounds that hold nothing between them. -/
def emptyMessage (min max : Int) : Text :=
  "Row range " ++ Text.integer min ++ "-" ++ Text.integer max ++ " is empty"

def holds (r : RowRange) (total : Int) : Bool := r.min ≤ total && total ≤ r.max

/-- The range as text: one total, or two bounds. -/
def text (r : RowRange) : Text :=
  if r.min = r.max then Text.integer r.min else Text.integer r.min ++ "-" ++ Text.integer r.max

end RowRange

/-- A row of a table, with the line it was read from. -/
structure Row where
  template : List Component
  range : RowRange
  source : Text
  deriving Repr, Inhabited

/-- A rollable that selects rows by a total. Its inputs are rolled once for every roll of the table,
and so is its extra text. -/
structure Table where
  path : Text
  title : Text
  dice : Dice.Expr
  rows : List Row
  inputs : Bindings Reference
  extra : Option (List Component)
  deriving Repr, Inhabited

namespace Table

/-- The first row that a total selects. -/
def findRow? (t : Table) (total : Int) : Option Row :=
  t.rows.find? fun row => row.range.holds total

end Table

/-- A rollable that stands for several references. -/
structure Bundle where
  path : Text
  title : Text
  refs : List Reference
  deriving Repr, Inhabited

/-- What can be rolled. -/
inductive Definition where
  | table (table : Table)
  | bundle (bundle : Bundle)
  deriving Repr, Inhabited

/-- The path that a definition is registered under. -/
def Definition.path : Definition → Text
  | table t => t.path
  | bundle b => b.path

def Definition.title : Definition → Text
  | table t => t.title
  | bundle b => b.title

end RandomTables
