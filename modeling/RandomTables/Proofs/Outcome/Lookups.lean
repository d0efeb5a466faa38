import RandomTables.Outcome.Text
import RandomTables.Proofs.Outcome.Below

/-!
# The rows of an outcome in the order of their look-ups

A row is looked up once the references in it have been rolled, since its text is part of what is
recorded. So the look-ups of an outcome are read off it from the bottom up: those of a table's
inputs, then for each row those of the references in it and its own, then those of its extra text.
Nothing but a row is looked up.
-/
namespace RandomTables

/-- What is recorded when a row of a table that is rolled at some depth is looked up. -/
def Table.lookupOf (table : Table) (depth : Int) (row : RowRoll) : EventBody :=
  .lookup table.path table.title row.total row.text depth

mutual

/-- The look-ups of a node that was rolled at some depth. -/
def Node.lookups (depth : Int) : Node → List EventBody
  | .table ⟨_, table, rows, _, extraNodes, inputs⟩ =>
    lookupsOfNodes (depth + 1) inputs ++ lookupsOfRows depth table rows ++
      lookupsOfNodes (depth + 1) extraNodes
  | .bundle ⟨_, _, repeats⟩ => lookupsOfRepeats (depth + 1) repeats
  | .leaf _ _ => []

/-- The look-ups of the references in a row of a table. -/
def RowRoll.lookupsBefore (depth : Int) : RowRoll → List EventBody
  | .missing _ => []
  | .found ⟨_, _, _, nested, _, _⟩ => lookupsOfNodes (depth + 1) nested

/-- The look-ups of the rows of a table, each after those of the references in it. -/
def lookupsOfRows (depth : Int) (table : Table) : List RowRoll → List EventBody
  | [] => []
  | row :: rest =>
    row.lookupsBefore depth ++ table.lookupOf depth row :: lookupsOfRows depth table rest

/-- The look-ups of nodes that were rolled one after another. -/
def lookupsOfNodes (depth : Int) : List Node → List EventBody
  | [] => []
  | node :: rest => node.lookups depth ++ lookupsOfNodes depth rest

/-- The look-ups of the repeats of a bundle. -/
def lookupsOfRepeats (depth : Int) : List (List Node) → List EventBody
  | [] => []
  | nodes :: rest => lookupsOfNodes depth nodes ++ lookupsOfRepeats depth rest

end

theorem lookupsOfNodes_eq_flatMap (depth : Int) (nodes : List Node) :
    lookupsOfNodes depth nodes = nodes.flatMap (Node.lookups depth) := by
  induction nodes with
  | nil => rfl
  | cons node rest ih => rw [lookupsOfNodes, ih, List.flatMap_cons]

/-- The look-ups of a row of a table: its own, after those of the references in it. -/
def RowRoll.lookups (depth : Int) (table : Table) (row : RowRoll) : List EventBody :=
  row.nested.flatMap (Node.lookups (depth + 1)) ++ [table.lookupOf depth row]

theorem RowRoll.lookupsBefore_eq_flatMap (depth : Int) (row : RowRoll) :
    row.lookupsBefore depth = row.nested.flatMap (Node.lookups (depth + 1)) := by
  cases row with
  | missing total => rfl
  | found row =>
    obtain ⟨total, range, text, nested, values, stored⟩ := row
    exact lookupsOfNodes_eq_flatMap (depth + 1) nested

theorem lookupsOfRows_eq_flatMap (depth : Int) (table : Table) (rows : List RowRoll) :
    lookupsOfRows depth table rows = rows.flatMap (RowRoll.lookups depth table) := by
  induction rows with
  | nil => rfl
  | cons row rest ih =>
    rw [lookupsOfRows, ih, List.flatMap_cons, RowRoll.lookups, RowRoll.lookupsBefore_eq_flatMap]
    simp

theorem lookupsOfRepeats_eq_flatMap (depth : Int) (repeats : List (List Node)) :
    lookupsOfRepeats depth repeats = repeats.flatten.flatMap (Node.lookups depth) := by
  induction repeats with
  | nil => rfl
  | cons nodes rest ih =>
    rw [lookupsOfRepeats, ih, lookupsOfNodes_eq_flatMap, List.flatten_cons, List.flatMap_append]

namespace Node

/-- The look-ups of a table: those of its inputs, its rows and its extra text, in this order. -/
theorem lookups_table (depth : Int) (roll : TableRoll) :
    (table roll).lookups depth =
      roll.inputs.flatMap (lookups (depth + 1)) ++
        roll.rows.flatMap (RowRoll.lookups depth roll.table) ++
          roll.extraNodes.flatMap (lookups (depth + 1)) := by
  obtain ⟨ref, definition, rows, extra, extraNodes, inputs⟩ := roll
  rw [lookups, lookupsOfNodes_eq_flatMap, lookupsOfNodes_eq_flatMap, lookupsOfRows_eq_flatMap]

theorem lookups_bundle (depth : Int) (roll : BundleRoll) :
    (bundle roll).lookups depth = roll.repeats.flatten.flatMap (lookups (depth + 1)) := by
  obtain ⟨ref, definition, repeats⟩ := roll
  rw [lookups, lookupsOfRepeats_eq_flatMap]

@[simp] theorem lookups_leaf (depth : Int) (ref : Reference) (path : Text) :
    (leaf ref path).lookups depth = [] := by
  rw [lookups]

/-- What is recorded of a node is recorded of one of its own rows, or of a node below it. -/
theorem mem_lookups {body : EventBody} {depth : Int} {node : Node} (h : body ∈ node.lookups depth) :
    (∃ roll row, node = table roll ∧ row ∈ roll.rows ∧ body = roll.table.lookupOf depth row) ∨
      ∃ child ∈ node.children, body ∈ child.lookups (depth + 1) := by
  cases node with
  | table roll =>
    rw [lookups_table] at h
    rcases List.mem_append.1 h with h | hextra
    · rcases List.mem_append.1 h with hinput | hrows
      · obtain ⟨child, hchild, hbody⟩ := List.mem_flatMap.1 hinput
        exact .inr ⟨child, mem_children_table_iff.2 (.inl hchild), hbody⟩
      · obtain ⟨row, hrow, hbody⟩ := List.mem_flatMap.1 hrows
        rcases List.mem_append.1 hbody with hnested | hself
        · obtain ⟨child, hchild, hbody⟩ := List.mem_flatMap.1 hnested
          exact .inr ⟨child, mem_children_table_iff.2 (.inr (.inl ⟨row, hrow, hchild⟩)), hbody⟩
        · exact .inl ⟨roll, row, rfl, hrow, List.mem_singleton.1 hself⟩
    · obtain ⟨child, hchild, hbody⟩ := List.mem_flatMap.1 hextra
      exact .inr ⟨child, mem_children_table_iff.2 (.inr (.inr hchild)), hbody⟩
  | bundle roll =>
    rw [lookups_bundle] at h
    exact .inr (List.mem_flatMap.1 h)
  | leaf ref path =>
    rw [lookups_leaf] at h
    cases h

/-- What is recorded of an outcome is recorded of a row of a table in it, with the depth that the
table has by its level. -/
theorem row_of_mem_lookups {body : EventBody} {depth : Int} {node : Node}
    (h : body ∈ node.lookups depth) :
    ∃ level roll row, node.Below level (table roll) ∧ row ∈ roll.rows ∧
      body = roll.table.lookupOf (depth + level) row := by
  induction node using children_induction generalizing depth with
  | step node ih =>
    rcases mem_lookups h with ⟨roll, row, rfl, hrow, rfl⟩ | ⟨child, hchild, hbody⟩
    · exact ⟨0, roll, row, .self _, hrow, by simp⟩
    · obtain ⟨level, roll, row, hbelow, hrow, rfl⟩ := ih child hchild hbody
      have hdepth : depth + ((level + 1 : Nat) : Int) = depth + 1 + level := by omega
      exact ⟨level + 1, roll, row, .child hchild hbelow, hrow, by rw [hdepth]⟩

end Node
end RandomTables
