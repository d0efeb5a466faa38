import RandomTables.IndexPath.Replace
import RandomTables.Proofs.Outcome.Below

/-!
# What holds throughout an outcome with a part replaced

When a part of an outcome is replaced, the table or bundle that holds the part changes, and every
node above changes by one of its children only, which has the same reference and the same path as
the child before. So something that still holds of a node after such an exchange holds throughout
the new outcome if it holds throughout the old one, and throughout the node that holds the new part.
-/
namespace RandomTables

/-- A function does not see that an item was exchanged for one of the same value. -/
theorem map_set_of_getElem? {α β : Type} {f : α → β} {items : List α} {index : Nat} {old new : α}
    (h : items[index]? = some old) (hf : f new = f old) :
    (items.set index new).map f = items.map f := by
  have hold : (items.map f)[index]? = some (f old) := by
    rw [List.getElem?_map, h]
    rfl
  obtain ⟨hlt, hget⟩ := List.getElem?_eq_some_iff.1 hold
  rw [List.map_set, hf, ← hget, List.set_getElem_self]

namespace Node
variable {P : Node → Prop}

theorem Below.trans {node inner sub : Node} {level more : Nat} (h : node.Below level inner)
    (hsub : inner.Below more sub) : ∃ depth, node.Below depth sub := by
  induction h with
  | self => exact ⟨more, hsub⟩
  | child hchild _ ih =>
    obtain ⟨depth, hbelow⟩ := ih hsub
    exact ⟨depth + 1, .child hchild hbelow⟩

theorem Throughout.of_below {node inner : Node} {level : Nat} (hnode : node.Throughout P)
    (h : node.Below level inner) : inner.Throughout P := by
  intro more sub hsub
  obtain ⟨depth, hbelow⟩ := h.trans hsub
  exact hnode depth sub hbelow

/-- A node came of the same reference as another one and has the same path, so that it can stand in
the same place. -/
structure SameOrigin (new old : Node) : Prop where
  ref_eq : new.ref = old.ref
  path_eq : new.path = old.path

/-- Something still holds of a table or bundle after a node in a row or repeat was exchanged for one
of the same origin. -/
structure Exchangeable (P : Node → Prop) : Prop where
  table {roll : TableRoll} {index number : Nat} {row : RowContent} {old new : Node} :
    roll.rows[index]? = some (.found row) → row.nested[number]? = some old → new.SameOrigin old →
      P (.table roll) → P (.table { roll with
        rows := roll.rows.set index (.found { row with nested := row.nested.set number new }) })
  bundle {roll : BundleRoll} {index number : Nat} {nodes : List Node} {old new : Node} :
    roll.repeats[index]? = some nodes → nodes[number]? = some old → new.SameOrigin old →
      P (.bundle roll) → P (.bundle { roll with
        repeats := roll.repeats.set index (nodes.set number new) })

/-- Something says nothing about the nodes that stand in the rows of a table or in a bundle. -/
structure Shallow (P : Node → Prop) : Prop where
  table {roll : TableRoll} {index : Nat} {row : RowContent} (nested : List Node) :
    roll.rows[index]? = some (.found row) → P (.table roll) →
      P (.table { roll with rows := roll.rows.set index (.found { row with nested }) })
  bundle {roll : BundleRoll} (repeats : List (List Node)) :
    P (.bundle roll) → P (.bundle { roll with repeats })

theorem Shallow.exchangeable (h : Shallow P) : Exchangeable P where
  table hrow _ _ hroll := h.table _ hrow hroll
  bundle _ _ _ hroll := h.bundle _ hroll

/-- With a row replaced the nodes directly below a table are some of those before, or in the new
row. -/
theorem mem_children_or_of_set_row {roll : TableRoll} {index : Nat} {row : RowRoll} {child : Node}
    (h : child ∈ (table { roll with rows := roll.rows.set index row }).children) :
    child ∈ (table roll).children ∨ child ∈ row.nested := by
  rcases mem_children_table_iff.1 h with hinput | ⟨other, hother, hnested⟩ | hextra
  · exact .inl (mem_children_table_iff.2 (.inl hinput))
  · rcases List.mem_or_eq_of_mem_set hother with hother | rfl
    · exact .inl (mem_children_table_iff.2 (.inr (.inl ⟨other, hother, hnested⟩)))
    · exact .inr hnested
  · exact .inl (mem_children_table_iff.2 (.inr (.inr hextra)))

/-- With a repeat replaced the nodes directly below a bundle are some of those before, or in the new
repeat. -/
theorem mem_children_or_of_set_repeat {roll : BundleRoll} {index : Nat} {nodes : List Node}
    {child : Node}
    (h : child ∈ (bundle { roll with repeats := roll.repeats.set index nodes }).children) :
    child ∈ (bundle roll).children ∨ child ∈ nodes := by
  obtain ⟨others, hothers, hmem⟩ := mem_children_bundle_iff.1 h
  rcases List.mem_or_eq_of_mem_set hothers with hothers | rfl
  · exact .inl (mem_children_bundle_iff.2 ⟨others, hothers, hmem⟩)
  · exact .inr hmem

/-- With a row replaced something holds throughout a table if it holds of the table, and throughout
the nodes in the new row. -/
theorem throughout_table_set {roll : TableRoll} {index : Nat} {row : RowRoll}
    (hroll : (Node.table roll).Throughout P)
    (hself : P (.table { roll with rows := roll.rows.set index row }))
    (hrow : ∀ node ∈ row.nested, node.Throughout P) :
    (Node.table { roll with rows := roll.rows.set index row }).Throughout P := by
  refine throughout_iff.2 ⟨hself, ?_⟩
  intro child hchild
  rcases mem_children_or_of_set_row hchild with hold | hnew
  · exact (throughout_iff.1 hroll).2 child hold
  · exact hrow child hnew

/-- With a repeat replaced something holds throughout a bundle if it holds of the bundle, and
throughout the nodes of the new repeat. -/
theorem throughout_bundle_set {roll : BundleRoll} {index : Nat} {nodes : List Node}
    (hroll : (Node.bundle roll).Throughout P)
    (hself : P (.bundle { roll with repeats := roll.repeats.set index nodes }))
    (hnodes : ∀ node ∈ nodes, node.Throughout P) :
    (Node.bundle { roll with repeats := roll.repeats.set index nodes }).Throughout P := by
  refine throughout_iff.2 ⟨hself, ?_⟩
  intro child hchild
  rcases mem_children_or_of_set_repeat hchild with hold | hnew
  · exact (throughout_iff.1 hroll).2 child hold
  · exact hnodes child hnew

/-- Something holds throughout the nodes of a list after one of them was replaced. -/
theorem throughout_mem_set {nodes : List Node} {index : Nat} {new : Node}
    (hnodes : ∀ node ∈ nodes, node.Throughout P) (hnew : new.Throughout P) :
    ∀ node ∈ nodes.set index new, node.Throughout P := by
  intro node hmem
  rcases List.mem_or_eq_of_mem_set hmem with hmem | rfl
  · exact hnodes node hmem
  · exact hnew

end Node

/-- The node that a target is rolled from: the table or bundle that holds it, or the node itself. -/
def Target.owner : Target → Node
  | node found => found
  | row parent _ _ => .table parent
  | nodes parent _ _ => .bundle parent

theorem Target.owner_of_parent? {target : Target} {parent : Node}
    (h : target.parent? = some parent) : target.owner = parent := by
  cases target with
  | node found => cases h
  | row | nodes => exact Option.some.inj h

namespace Node

/-- What a target is rolled from is a node of the outcome. -/
theorem owner_below_of_locate? {context : Context} {node : Node} {path : IndexPath} {l : Location}
    (h : node.locate? context path = some l) : ∃ level, node.Below level l.target.owner := by
  fun_induction Node.locate? context node path with
  | case1 context node =>
    obtain rfl := Option.some.inj h
    exact ⟨0, .self _⟩
  | case2 context roll i | case3 context roll i =>
    obtain ⟨_, _, rfl⟩ := Option.map_eq_some_iff.1 h
    exact ⟨0, .self _⟩
  | case4 context roll i j rest row hitem node hchild ih =>
    obtain ⟨index, rfl, hrow⟩ := itemAt?_eq_some_iff.1 hitem
    obtain ⟨number, rfl, hnode⟩ := itemAt?_eq_some_iff.1 hchild
    obtain ⟨level, hbelow⟩ := ih h
    exact ⟨level + 1, .child (mem_children_table_iff.2 (.inr (.inl
      ⟨_, List.mem_of_getElem? hrow, List.mem_of_getElem? hnode⟩))) hbelow⟩
  | case7 context roll i j rest nodes hitem node hchild ih =>
    obtain ⟨index, rfl, hnodes⟩ := itemAt?_eq_some_iff.1 hitem
    obtain ⟨number, rfl, hnode⟩ := itemAt?_eq_some_iff.1 hchild
    obtain ⟨level, hbelow⟩ := ih h
    exact ⟨level + 1, .child (mem_children_bundle_iff.2
      ⟨_, List.mem_of_getElem? hnodes, List.mem_of_getElem? hnode⟩) hbelow⟩
  | case5 => cases h
  | case6 => cases h
  | case8 => cases h
  | case9 => cases h
  | case10 => cases h

/-- The table or bundle that holds the target of a path is a node of the outcome. -/
theorem below_of_locate? {context : Context} {node parent : Node} {path : IndexPath} {l : Location}
    (h : node.locate? context path = some l) (hparent : l.target.parent? = some parent) :
    ∃ level, node.Below level parent := by
  rw [← Target.owner_of_parent? hparent]
  exact owner_below_of_locate? h

end Node

/-- The node that holds the target of a path, with a piece in place of the target. -/
def Target.holder? : Target → Piece → Option Node
  | node _, .node new => some new
  | row parent index _, .row new => some (.table { parent with rows := parent.rows.set index new })
  | nodes parent index _, .nodes new =>
    some (.bundle { parent with repeats := parent.repeats.set index new })
  | _, _ => none

/-- With a part replaced an outcome has the same origin, and what can be exchanged holds throughout
it, if it did before and does throughout the node that holds the new part. A node in the place of
another one is to have the same origin. -/
theorem Node.throughout_of_replace? {P : Node → Prop} (hP : Exchangeable P) {context : Context}
    {node replaced : Node} {path : IndexPath} {l : Location} {new : Piece}
    (hlocate : node.locate? context path = some l)
    (hreplace : node.replace? new path = some replaced) (hnode : node.Throughout P)
    (hnew : ∀ holder, l.target.holder? new = some holder → holder.Throughout P)
    (horigin : ∀ old holder, l.target = .node old → l.target.holder? new = some holder →
      holder.SameOrigin old) :
    replaced.Throughout P ∧ replaced.SameOrigin node := by
  fun_induction Node.locate? context node path generalizing replaced with
  | case1 context node =>
    obtain rfl := Option.some.inj hlocate
    cases new with
    | node new =>
      obtain rfl : new = replaced := by cases node <;> exact Option.some.inj hreplace
      exact ⟨hnew new rfl, horigin node new rfl rfl⟩
    | row new => cases node <;> cases hreplace
    | nodes new => cases node <;> cases hreplace
  | case2 context roll i =>
    obtain ⟨row, hitem, rfl⟩ := Option.map_eq_some_iff.1 hlocate
    simp only [Node.replace?, hitem] at hreplace
    cases new with
    | row new =>
      obtain rfl := Option.some.inj hreplace
      exact ⟨hnew _ rfl, ⟨rfl, rfl⟩⟩
    | node new => cases hreplace
    | nodes new => cases hreplace
  | case3 context roll i =>
    obtain ⟨nodes, hitem, rfl⟩ := Option.map_eq_some_iff.1 hlocate
    simp only [Node.replace?, hitem] at hreplace
    cases new with
    | nodes new =>
      obtain rfl := Option.some.inj hreplace
      exact ⟨hnew _ rfl, ⟨rfl, rfl⟩⟩
    | node new => cases hreplace
    | row new => cases hreplace
  | case4 context roll i j rest row hitem child hchild ih =>
    simp only [Node.replace?, hitem, hchild] at hreplace
    obtain ⟨new', hnew', rfl⟩ := Option.map_eq_some_iff.1 hreplace
    obtain ⟨index, rfl, hrow⟩ := itemAt?_eq_some_iff.1 hitem
    obtain ⟨number, rfl, hmem⟩ := itemAt?_eq_some_iff.1 hchild
    -- All the nodes in this row are below the table.
    have hnested : ∀ node ∈ row.nested, node.Throughout P := fun node hnested =>
      (throughout_iff.1 hnode).2 node (mem_children_table_iff.2 (.inr (.inl
        ⟨_, List.mem_of_getElem? hrow, hnested⟩)))
    obtain ⟨hreplaced, hsame⟩ := ih hlocate hnew' (hnested child (List.mem_of_getElem? hmem))
    have hself := hP.table hrow hmem hsame (throughout_iff.1 hnode).1
    exact ⟨throughout_table_set hnode hself (throughout_mem_set hnested hreplaced), ⟨rfl, rfl⟩⟩
  | case7 context roll i j rest nodes hitem child hchild ih =>
    simp only [Node.replace?, hitem, hchild] at hreplace
    obtain ⟨new', hnew', rfl⟩ := Option.map_eq_some_iff.1 hreplace
    obtain ⟨index, rfl, hnodes⟩ := itemAt?_eq_some_iff.1 hitem
    obtain ⟨number, rfl, hmem⟩ := itemAt?_eq_some_iff.1 hchild
    have hall : ∀ node ∈ nodes, node.Throughout P := fun node hmem =>
      (throughout_iff.1 hnode).2 node (mem_children_bundle_iff.2
        ⟨_, List.mem_of_getElem? hnodes, hmem⟩)
    obtain ⟨hreplaced, hsame⟩ := ih hlocate hnew' (hall child (List.mem_of_getElem? hmem))
    have hself := hP.bundle hnodes hmem hsame (throughout_iff.1 hnode).1
    exact ⟨throughout_bundle_set hnode hself (throughout_mem_set hall hreplaced), ⟨rfl, rfl⟩⟩
  | case5 => cases hlocate
  | case6 => cases hlocate
  | case8 => cases hlocate
  | case9 => cases hlocate
  | case10 => cases hlocate

end RandomTables
