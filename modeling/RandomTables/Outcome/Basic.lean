import RandomTables.Definition.Basic
import RandomTables.Template.Resolved

/-!
# Outcomes

What rolling a reference comes to is a tree. A table that was rolled has a row for every repeat and
a node for each reference in a row; a bundle has, for every repeat, a node for each of its
references; a reference that was not rolled is a leaf.

Bindings travel up the tree: a row stores some of its values, a table exports what its rows stored,
and a bundle exports what its store picks out of its children's exports.
-/
namespace RandomTables

mutual

/-- What a reference came to. -/
inductive Node where
  | table (roll : TableRoll)
  | bundle (roll : BundleRoll)
  | leaf (ref : Reference) (path : Text)

/-- A table that was rolled. There is one node in `inputs` for each of the table's inputs, in the
same order. -/
structure TableRoll where
  ref : Reference
  table : Table
  rows : List RowRoll
  extra : List Resolved
  extraNodes : List Node
  inputs : List Node

/-- A bundle that was rolled. -/
structure BundleRoll where
  ref : Reference
  bundle : Bundle
  repeats : List (List Node)

/-- A row that was rolled, or a total that no row covers. -/
inductive RowRoll where
  | missing (total : Int)
  | found (row : RowContent)

/-- The content of a row: what its text and its references came to, the values computed on the way,
and what it stores. -/
structure RowContent where
  total : Int
  range : RowRange
  text : List Resolved
  nested : List Node
  values : Bindings (List Int)
  stored : Bindings Int

end

instance : Inhabited Node := ⟨.leaf default ""⟩
instance : Inhabited RowRoll := ⟨.missing 0⟩

namespace RowRoll

/-- The total that a row was rolled with. -/
def total : RowRoll → Int
  | missing total => total
  | found row => row.total

def stored : RowRoll → Bindings Int
  | missing _ => .empty
  | found row => row.stored

end RowRoll

namespace Reference

/-- The title that a reference gives, unless it is empty, or else another one. -/
def titleOr (r : Reference) (other : Text) : Text :=
  match r.title with
  | none => other
  | some title => if title.isEmpty then other else title

end Reference

namespace Node

def ref : Node → Reference
  | table roll => roll.ref
  | bundle roll => roll.ref
  | leaf ref _ => ref

/-- The path of a node's definition, or the path at which there is none. -/
def path : Node → Text
  | table roll => roll.table.path
  | bundle roll => roll.bundle.path
  | leaf _ path => path

def title : Node → Text
  | table roll => roll.ref.titleOr roll.table.title
  | bundle roll => roll.ref.titleOr roll.bundle.title
  | leaf ref path => ref.titleOr path

end Node

/-- What a table exports: what its rows stored, where later rows count. -/
def TableRoll.exports (roll : TableRoll) : Bindings Int :=
  roll.rows.foldl (fun done row => done.merge row.stored) .empty

/-- The bindings that a store picks out, each under its target. -/
def Bindings.pick (store : Bindings Text) (found : Bindings Int) : Bindings Int :=
  .ofList <| store.entries.filterMap fun (target, source) =>
    (found.get? source).map fun n => (target, n)

mutual

def Node.exports : Node → Bindings Int
  | .table roll => roll.exports
  | .bundle ⟨ref, _, repeats⟩ => ref.instructions.store.pick (exportsOfRepeats .empty repeats)
  | .leaf _ _ => .empty

/-- The exports of nodes in order on top of other bindings. -/
def exportsOfNodes (done : Bindings Int) : List Node → Bindings Int
  | [] => done
  | node :: rest => exportsOfNodes (done.merge node.exports) rest

/-- The exports of repeats in order on top of other bindings. -/
def exportsOfRepeats (done : Bindings Int) : List (List Node) → Bindings Int
  | [] => done
  | nodes :: rest => exportsOfRepeats (exportsOfNodes done nodes) rest

end

/-- The context with the exports of some nodes on top. -/
def Context.after (context : Context) (nodes : List Node) : Context :=
  nodes.foldl (fun c node => c.extended node.exports) context

@[simp] theorem Context.after_nil (context : Context) : context.after [] = context := rfl

@[simp] theorem Context.after_cons (context : Context) (node : Node) (nodes : List Node) :
    context.after (node :: nodes) = (context.extended node.exports).after nodes := rfl

@[simp] theorem Context.after_depth (context : Context) (nodes : List Node) :
    (context.after nodes).depth = context.depth := by
  induction nodes generalizing context with
  | nil => rfl
  | cons node nodes ih => simp [ih]

end RandomTables
