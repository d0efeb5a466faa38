import RandomTables.Outcome.Basic
import RandomTables.Proofs.Template.Followed

/-!
# The nodes of an outcome

The nodes directly below a node are what the references of its definition came to: the inputs of a
table, the references in its rows and in its extra text, or the references of a bundle. Every other
node of an outcome lies some levels below the root. Something holds throughout an outcome if it
holds of the root and throughout every node directly below it.
-/
namespace RandomTables

/-- What the references in a row came to. -/
def RowRoll.nested : RowRoll → List Node
  | missing _ => []
  | found row => row.nested

namespace Node

/-- The node stands for a reference that was not rolled. -/
def isLeaf : Node → Bool
  | leaf _ _ => true
  | _ => false

def children : Node → List Node
  | table roll => roll.inputs ++ roll.rows.flatMap RowRoll.nested ++ roll.extraNodes
  | bundle roll => roll.repeats.flatten
  | leaf _ _ => []

/-- References that stand together in the definition of a node, and the nodes that they came to. -/
inductive Family : Node → List Reference → List Node → Prop where
  | inputs (roll : TableRoll) :
    Family (table roll) (roll.table.inputs.entries.map (·.2)) roll.inputs
  | row {roll : TableRoll} {row : RowContent} {selected : Row} (hrow : .found row ∈ roll.rows)
    (hfind : roll.table.findRow? row.total = some selected) :
    Family (table roll) (Template.followed selected.template row.text) row.nested
  | extra {roll : TableRoll} {template : List Component}
    (hextra : roll.table.extra = some template) :
    Family (table roll) (Template.followed template roll.extra) roll.extraNodes
  | repeat {roll : BundleRoll} {nodes : List Node} (hnodes : nodes ∈ roll.repeats) :
    Family (bundle roll) roll.bundle.refs nodes

/-- A node of an outcome, so many levels below the root. -/
inductive Below : Node → Nat → Node → Prop where
  | self (node : Node) : Below node 0 node
  | child {node child sub : Node} {level : Nat} (hchild : child ∈ node.children)
    (hsub : Below child level sub) : Below node (level + 1) sub

/-- Below a leaf there is nothing else. -/
theorem isLeaf_of_below_leaf {ref : Reference} {path : Text} {level : Nat} {sub : Node}
    (h : (leaf ref path).Below level sub) : sub.isLeaf = true := by
  cases h with
  | self => rfl
  | child hchild _ => cases hchild

/-- Something holds of every node of an outcome. -/
def Throughout (P : Node → Prop) (node : Node) : Prop :=
  ∀ level sub, node.Below level sub → P sub

theorem throughout_iff {P : Node → Prop} {node : Node} :
    node.Throughout P ↔ P node ∧ ∀ child ∈ node.children, child.Throughout P := by
  constructor
  · intro h
    refine ⟨h 0 node (.self node), ?_⟩
    intro child hchild level sub hsub
    exact h (level + 1) sub (.child hchild hsub)
  · rintro ⟨hself, hchildren⟩ level sub hsub
    cases hsub with
    | self => exact hself
    | child hchild hsub => exact hchildren _ hchild _ sub hsub

theorem mem_children_table_iff {roll : TableRoll} {child : Node} :
    child ∈ (table roll).children ↔
      child ∈ roll.inputs ∨ (∃ row ∈ roll.rows, child ∈ row.nested) ∨ child ∈ roll.extraNodes := by
  simp only [children, List.mem_append, List.mem_flatMap, or_assoc]

theorem mem_children_bundle_iff {roll : BundleRoll} {child : Node} :
    child ∈ (bundle roll).children ↔ ∃ nodes ∈ roll.repeats, child ∈ nodes := by
  simp only [children, List.mem_flatten]

theorem sizeOf_lt_of_mem_children {node child : Node} (h : child ∈ node.children) :
    sizeOf child < sizeOf node := by
  cases node with
  | table roll =>
    obtain ⟨ref, definition, rows, extra, extraNodes, inputs⟩ := roll
    simp only [table.sizeOf_spec, TableRoll.mk.sizeOf_spec]
    rcases mem_children_table_iff.1 h with hinput | ⟨row, hrow, hnested⟩ | hextra
    · have hlt : sizeOf child < sizeOf inputs := List.sizeOf_lt_of_mem hinput
      omega
    · cases row with
      | missing total => cases hnested
      | found row =>
        obtain ⟨total, range, text, nested, values, stored⟩ := row
        have hlt : sizeOf child < sizeOf nested := List.sizeOf_lt_of_mem hnested
        have houter := List.sizeOf_lt_of_mem hrow
        simp only [RowRoll.found.sizeOf_spec, RowContent.mk.sizeOf_spec] at houter
        omega
    · have hlt : sizeOf child < sizeOf extraNodes := List.sizeOf_lt_of_mem hextra
      omega
  | bundle roll =>
    obtain ⟨nodes, hnodes, hchild⟩ := mem_children_bundle_iff.1 h
    obtain ⟨ref, definition, repeats⟩ := roll
    have hlt := List.sizeOf_lt_of_mem hchild
    have houter : sizeOf nodes < sizeOf repeats := List.sizeOf_lt_of_mem hnodes
    simp only [bundle.sizeOf_spec, BundleRoll.mk.sizeOf_spec]
    omega
  | leaf ref path => cases h

/-- What holds of a node if it holds of the nodes directly below it holds of every node. -/
@[elab_as_elim]
theorem children_induction {P : Node → Prop}
    (step : ∀ node, (∀ child ∈ node.children, P child) → P node) (node : Node) : P node :=
  step node fun child _ => children_induction step child
termination_by sizeOf node
decreasing_by exact sizeOf_lt_of_mem_children ‹_›

/-- A node below the root stands directly below another one. -/
theorem Below.exists_parent {node sub : Node} {level : Nat} (h : node.Below (level + 1) sub) :
    ∃ parent, node.Below level parent ∧ sub ∈ parent.children := by
  induction level generalizing node with
  | zero =>
    cases h with
    | child hchild hsub =>
      cases hsub with
      | self => exact ⟨node, .self node, hchild⟩
  | succ level ih =>
    cases h with
    | child hchild hsub =>
      obtain ⟨parent, hparent, hmem⟩ := ih hsub
      exact ⟨parent, .child hchild hparent, hmem⟩

theorem Throughout.mono {P Q : Node → Prop} {node : Node} (h : node.Throughout P)
    (hPQ : ∀ sub, P sub → Q sub) : node.Throughout Q :=
  fun level sub hsub => hPQ sub (h level sub hsub)

end Node

/-! ## All nodes of an outcome in a list -/

mutual

def Node.all : Node → List Node
  | node@(.table ⟨_, _, rows, _, extraNodes, inputs⟩) =>
    node :: (allOfNodes inputs ++ allOfRows rows ++ allOfNodes extraNodes)
  | node@(.bundle ⟨_, _, repeats⟩) => node :: allOfRepeats repeats
  | node@(.leaf _ _) => [node]

def RowRoll.all : RowRoll → List Node
  | .missing _ => []
  | .found ⟨_, _, _, nested, _, _⟩ => allOfNodes nested

def allOfRows : List RowRoll → List Node
  | [] => []
  | row :: rest => row.all ++ allOfRows rest

def allOfNodes : List Node → List Node
  | [] => []
  | node :: rest => node.all ++ allOfNodes rest

def allOfRepeats : List (List Node) → List Node
  | [] => []
  | nodes :: rest => allOfNodes nodes ++ allOfRepeats rest

end

theorem allOfNodes_eq_flatMap (nodes : List Node) : allOfNodes nodes = nodes.flatMap Node.all := by
  induction nodes with
  | nil => rfl
  | cons node rest ih => rw [allOfNodes, ih, List.flatMap_cons]

theorem RowRoll.all_eq_flatMap (row : RowRoll) : row.all = row.nested.flatMap Node.all := by
  cases row with
  | missing total => rfl
  | found row =>
    obtain ⟨total, range, text, nested, values, stored⟩ := row
    exact allOfNodes_eq_flatMap nested

theorem allOfRows_eq_flatMap (rows : List RowRoll) :
    allOfRows rows = (rows.flatMap RowRoll.nested).flatMap Node.all := by
  induction rows with
  | nil => rfl
  | cons row rest ih =>
    rw [allOfRows, ih, RowRoll.all_eq_flatMap, List.flatMap_cons, List.flatMap_append]

theorem allOfRepeats_eq_flatMap (repeats : List (List Node)) :
    allOfRepeats repeats = repeats.flatten.flatMap Node.all := by
  induction repeats with
  | nil => rfl
  | cons nodes rest ih =>
    rw [allOfRepeats, ih, allOfNodes_eq_flatMap, List.flatten_cons, List.flatMap_append]

namespace Node

theorem all_eq (node : Node) : node.all = node :: node.children.flatMap all := by
  cases node with
  | table roll =>
    obtain ⟨ref, definition, rows, extra, extraNodes, inputs⟩ := roll
    rw [all, allOfNodes_eq_flatMap, allOfNodes_eq_flatMap, allOfRows_eq_flatMap, children,
      List.flatMap_append, List.flatMap_append]
  | bundle roll =>
    obtain ⟨ref, definition, repeats⟩ := roll
    rw [all, allOfRepeats_eq_flatMap, children]
  | leaf ref path => rfl

/-- What holds of all nodes in the list holds throughout the outcome. -/
theorem throughout_iff_forall_mem_all {P : Node → Prop} {node : Node} :
    node.Throughout P ↔ ∀ sub ∈ node.all, P sub := by
  induction node using children_induction with
  | step node ih =>
    rw [throughout_iff, all_eq, List.forall_mem_cons]
    refine and_congr_right fun _ => ?_
    constructor
    · intro h sub hsub
      obtain ⟨child, hchild, hsub⟩ := List.mem_flatMap.1 hsub
      exact (ih child hchild).1 (h child hchild) sub hsub
    · intro h child hchild
      exact (ih child hchild).2 fun sub hsub => h sub (List.mem_flatMap.2 ⟨child, hchild, hsub⟩)

instance (P : Node → Prop) [DecidablePred P] (node : Node) : Decidable (node.Throughout P) :=
  decidable_of_iff _ throughout_iff_forall_mem_all.symm

end Node
end RandomTables
