import RandomTables.IndexPath.Locate

/-!
# Replacing a part of an outcome

A part of an outcome is replaced by another one of the same kind, and everything that does not lie
on the path stays as it is.
-/
namespace RandomTables

/-- The items with another one in place of that at an index. -/
def setAt {α : Type} (items : List α) (index : Int) (item : α) : List α :=
  items.set index.toNat item

/-- The outcome with the part that a path leads to replaced; nothing if the path leads nowhere, or
to a part of another kind. -/
def Node.replace? (new : Piece) : Node → IndexPath → Option Node
  | _, [] =>
    match new with
    | .node node => some node
    | _ => none
  | .table roll, [i] =>
    match new, itemAt? roll.rows i with
    | .row row, some _ => some (.table { roll with rows := setAt roll.rows i row })
    | _, _ => none
  | .bundle roll, [i] =>
    match new, itemAt? roll.repeats i with
    | .nodes nodes, some _ => some (.bundle { roll with repeats := setAt roll.repeats i nodes })
    | _, _ => none
  | .table roll, i :: j :: rest =>
    match itemAt? roll.rows i with
    | some (.found row) =>
      match itemAt? row.nested j with
      | some node =>
        (node.replace? new rest).map fun node =>
          let row := { row with nested := setAt row.nested j node }
          .table { roll with rows := setAt roll.rows i (.found row) }
      | none => none
    | _ => none
  | .bundle roll, i :: j :: rest =>
    match itemAt? roll.repeats i with
    | some nodes =>
      match itemAt? nodes j with
      | some node =>
        (node.replace? new rest).map fun node =>
          .bundle { roll with repeats := setAt roll.repeats i (setAt nodes j node) }
      | none => none
    | none => none
  | .leaf _ _, _ :: _ => none
termination_by structural _ path => path

end RandomTables
