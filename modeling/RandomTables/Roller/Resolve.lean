import RandomTables.Registry
import RandomTables.Roller.Rows

/-!
# Rolling references

A reference is looked up in the registry below the definition it stands in. What it points to is
rolled together with all references in it, each one level deeper. References may lead back to where
they stand: what bounds the depth is a limit, beyond which a table still rolls its rows and leaves
the references in them as leaves.

The number of levels that are left is what the recursion runs on. It is a function of the depth, so
it is never kept anywhere. A limit that the machine sets on nested calls is left out: it would end a
roll whose own limit is set very high.
-/
namespace RandomTables

/-- What references are rolled with. -/
structure Roller where
  registry : Registry
  source : Source
  maxDepth : Int

namespace Roller

/-- The limit of the depth unless another one is asked for. -/
def usualDepth : Int := 10

/-- The path that a reference points to from the definition at `directory`. -/
def pathOf (r : Roller) (directory : Text) (ref : Reference) : Text :=
  Path.resolve ref.path directory r.registry.root

/-- A reference that is not rolled. -/
def leafOf (r : Roller) (directory : Text) (ref : Reference) : Node :=
  .leaf ref (r.pathOf directory ref)

/-- The texts that a table's inputs have come to, under their keys. -/
def inputTexts (table : Table) (inputs : List Node) : Bindings (List Text) :=
  ⟨table.inputs.keys.zip (inputs.map Node.rowTexts)⟩

/-- Roll the extra text of a table, if it has any, and the references in it. -/
def rollExtra (r : Roller) (children : ChildRoller) (context : Context) (table : Table)
    (inputs : Bindings (List Text)) : Roll (List Resolved × List Node) :=
  match table.extra with
  | none => return ([], [])
  | some template => do
    let found ← Template.resolve r.source ⟨context, inputs⟩ .empty template
    let nodes ← children table.path context .empty found.refs
    return (found.text, nodes)

/-- Roll a table: its inputs, then its rows, then its extra text. -/
def rollTable (r : Roller) (children : ChildRoller) (context : Context) (ref : Reference)
    (table : Table) : Roll TableRoll := do
  let inputs ← children table.path context .empty (table.inputs.entries.map (·.2))
  let texts := inputTexts table inputs
  let batch : Batch := ⟨table, context, ref.instructions, texts⟩
  let rows ← batch.rollRows r.source children (ref.instructions.ignored context)
    (ref.instructions.count context)
  let (extra, extraNodes) ← r.rollExtra children context table texts
  return ⟨ref, table, rows, extra, extraNodes, inputs⟩

/-- Roll the references of a bundle several times over. -/
def rollRepeats (children : ChildRoller) (context : Context) (bundle : Bundle) :
    Nat → Roll (List (List Node))
  | 0 => return []
  | count + 1 => do
    let nodes ← children bundle.path context .empty bundle.refs
    let repeats ← rollRepeats children context bundle count
    return nodes :: repeats

def rollBundle (children : ChildRoller) (context : Context) (ref : Reference) (bundle : Bundle) :
    Roll BundleRoll := do
  let repeats ← rollRepeats children context bundle (ref.instructions.count context)
  return ⟨ref, bundle, repeats⟩

/-- Roll a definition as a reference says. -/
def rollDefinition (r : Roller) (children : ChildRoller) (context : Context) (ref : Reference) :
    Definition → Roll Node
  | .table table => do return .table (← r.rollTable children context ref table)
  | .bundle bundle => do return .bundle (← rollBundle children context ref bundle)

/-- Roll what a reference points to; it stays a leaf if there is nothing. -/
def rollReference (r : Roller) (children : ChildRoller) (directory : Text) (context : Context)
    (ref : Reference) : Roll Node :=
  match r.registry.get? (r.pathOf directory ref) with
  | none => return r.leafOf directory ref
  | some d => r.rollDefinition children context ref d

/-- Roll references one after another, each with the exports of those before it. -/
def rollSiblings (roll : Context → Reference → Roll Node) (context : Context) :
    List Reference → Roll (List Node)
  | [] => return []
  | ref :: rest => do
    let node ← roll context ref
    let nodes ← rollSiblings roll (context.extended node.exports) rest
    return node :: nodes

/-- Roll the references of a definition below which so many levels are left. -/
def childrenAt (r : Roller) : Nat → ChildRoller
  | 0 => fun directory _ _ refs => return refs.map (r.leafOf directory)
  | levels + 1 => fun directory context stored refs =>
    rollSiblings (r.rollReference (r.childrenAt levels) directory) (context.child stored) refs

/-- How many levels are left below a depth. -/
def levelsBelow (r : Roller) (depth : Int) : Nat := (r.maxDepth + 1 - depth).toNat

/-- Roll the references of a definition that is rolled in a context. -/
def children (r : Roller) (context : Context) : ChildRoller :=
  r.childrenAt (r.levelsBelow context.depth)

/-- Roll the reference that stands in the definition at `directory`. -/
def resolve (r : Roller) (directory : Text) (context : Context) (ref : Reference) : Roll Node :=
  r.rollReference (r.children context) directory context ref

/-- Beyond the limit the references of a definition become leaves. -/
theorem children_of_lt {r : Roller} {context : Context} (h : r.maxDepth < context.depth)
    (directory : Text) (c : Context) (stored : Bindings Int) (refs : List Reference) :
    r.children context directory c stored refs = pure (refs.map (r.leafOf directory)) := by
  have : r.levelsBelow context.depth = 0 := by unfold levelsBelow; omega
  rw [children, this, childrenAt]

/-- Within the limit the references of a definition are resolved one level deeper. -/
theorem children_of_le {r : Roller} {context : Context} (h : context.depth ≤ r.maxDepth)
    (directory : Text) (stored : Bindings Int) (refs : List Reference) :
    r.children context directory context stored refs =
      rollSiblings (r.rollReference (r.childrenAt (r.levelsBelow (context.depth + 1))) directory)
        (context.child stored) refs := by
  have : r.levelsBelow context.depth = r.levelsBelow (context.depth + 1) + 1 := by
    unfold levelsBelow; omega
  rw [children, this, childrenAt]

end Roller
end RandomTables
