import RandomTables.IndexPath.Replace
import RandomTables.Roller.Resolve

/-!
# Rolling a part again

A row, a repeat or a node of an outcome is rolled again in the context in which it was rolled first,
and takes the place of the old one. Whether that can be done is settled before anything is rolled.
A row of a table with unique totals ignores the totals of the other rows; it stays as it is when no
other total comes up.
-/
namespace RandomTables

/-- Why a part is not rolled again. -/
inductive RerollFault where
  | outOfRange (path : IndexPath)
  | noDefinition (path : Text)
  deriving Repr, DecidableEq

def RerollFault.message : RerollFault → Text
  | outOfRange path => path.outOfRangeMessage
  | noDefinition path => "No rollable definition at " ++ path

namespace Roller

/-- The totals that a row rolled again may not have because other rows have them. -/
def takenTotals (roll : TableRoll) (index : Nat) : List Int :=
  if roll.ref.instructions.unique then (roll.rows.eraseIdx index).map RowRoll.total else []

def rerollRow (r : Roller) (context : Context) (roll : TableRoll) (index : Nat) (row : RowRoll)
    (table : Table) : Roll RowRoll := do
  let batch : Batch :=
    ⟨table, context, roll.ref.instructions, inputTexts roll.table roll.inputs⟩
  let ignored := roll.ref.instructions.ignored context ++ takenTotals roll index
  let rows ← batch.rollRows r.source (r.children context) ignored 1
  return rows.head?.getD row

/-- What takes the place of a target. -/
def rerollTarget (r : Roller) (context : Context) : Target → Except RerollFault (Roll Piece)
  | .row roll index row =>
    match r.registry.get? roll.table.path with
    | some (.table table) => .ok (.row <$> r.rerollRow context roll index row table)
    | _ => .error (.noDefinition roll.table.path)
  | .nodes roll _ _ =>
    match r.registry.get? roll.bundle.path with
    | some (.bundle bundle) =>
      .ok (.nodes <$> r.children context bundle.path context .empty bundle.refs)
    | _ => .error (.noDefinition roll.bundle.path)
  | .node node =>
    match r.registry.get? node.path with
    | some d => .ok (.node <$> r.rollDefinition (r.children context) context node.ref d)
    | none => .error (.noDefinition node.path)

/-- Roll the part that a path leads to again, in an outcome that was rolled in a context. -/
def reroll (r : Roller) (path : IndexPath) (root : Node) (context : Context) :
    Except RerollFault (Roll Node) :=
  match root.locate? context path with
  | none => .error (.outOfRange path)
  | some ⟨context, target⟩ =>
    (r.rerollTarget context target).map fun roll => do
      let new ← roll
      Roll.logEvent (.reroll path target.path target.kindName)
      return (root.replace? new path).getD root

end Roller
end RandomTables
