import RandomTables.Proofs.Roller.Depth
import RandomTables.Proofs.Roller.Reachable

/-!
# Outcomes as their registry has it

A node of an outcome conforms to a registry if it shows what the registry holds under its path: a
table has a row for each total exactly as its definition selects one, a bundle has a node for each
of its references in every repeat, and every node lies under the path that its reference leads to
from the definition it stands in. Resolving a reference makes nodes that conform, and rolling parts
again with the same registry keeps them so, whichever source, limit and context is used each time.
-/
namespace RandomTables

/-- A row is as a table has it: there is none for a total that selects none, and otherwise it has
the range of the row that the total selects, and nodes for references that are written there, in the
same order. -/
def RowRoll.Conforms (table : Table) : RowRoll → Prop
  | missing total => table.findRow? total = none
  | found row => ∃ selected, table.findRow? row.total = some selected ∧
      row.range = selected.range ∧
      (row.nested.map Node.ref).Sublist (Template.references selected.template)

/-- A node lies under the path that its reference leads to from the definition at `directory`. -/
def Node.LiesFrom (registry : Registry) (directory : Text) (node : Node) : Prop :=
  node.path = Path.resolve node.ref.path directory registry.root

/-- A table is rolled as the registry has it: for each key of its inputs there is one node, which
came of the reference under that key, its rows are rows of the table, and all nodes below it lie
where their references lead. -/
structure TableRoll.Conforms (registry : Registry) (roll : TableRoll) : Prop where
  registered : registry.get? (Node.table roll).path = some (.table roll.table)
  inputs : List.Forall₂ (fun entry node => node.ref = entry.2) roll.table.inputs.entries roll.inputs
  rows : ∀ row ∈ roll.rows, row.Conforms roll.table
  below : ∀ child ∈ (Node.table roll).children, child.LiesFrom registry roll.table.path

/-- A bundle is rolled as the registry has it: every repeat has one node for each reference of the
bundle, in the same order, and all nodes below it lie where their references lead. -/
structure BundleRoll.Conforms (registry : Registry) (roll : BundleRoll) : Prop where
  registered : registry.get? (Node.bundle roll).path = some (.bundle roll.bundle)
  repeats : ∀ nodes ∈ roll.repeats, nodes.map Node.ref = roll.bundle.refs
  below : ∀ child ∈ (Node.bundle roll).children, child.LiesFrom registry roll.bundle.path

/-- A node is as the registry has it; leaves stand for what was not rolled, so there is nothing to
compare. -/
def Node.Conforms (registry : Registry) : Node → Prop
  | table roll => roll.Conforms registry
  | bundle roll => roll.Conforms registry
  | leaf _ _ => True

/-- Where a node was exchanged for one of the same origin, the nodes still come of the same
references. -/
theorem Node.SameOrigin.map_ref {nodes : List Node} {number : Nat} {old new : Node}
    (h : new.SameOrigin old) (hold : nodes[number]? = some old) :
    (nodes.set number new).map Node.ref = nodes.map Node.ref :=
  map_set_of_getElem? hold h.ref_eq

/-- Where a node was exchanged for one of the same origin, all nodes still lie where their
references lead. -/
theorem Node.SameOrigin.liesFrom {registry : Registry} {directory : Text} {nodes : List Node}
    {number : Nat} {old new child : Node} (h : new.SameOrigin old)
    (hold : nodes[number]? = some old) (hnodes : ∀ node ∈ nodes, node.LiesFrom registry directory)
    (hchild : child ∈ nodes.set number new) : child.LiesFrom registry directory := by
  rcases List.mem_or_eq_of_mem_set hchild with hchild | rfl
  · exact hnodes child hchild
  · have hlies := hnodes old (List.mem_of_getElem? hold)
    rw [LiesFrom, ← h.ref_eq, ← h.path_eq] at hlies
    exact hlies

theorem Node.conforms_exchangeable (registry : Registry) : Exchangeable (Conforms registry) where
  table {roll index number row old new} hrow hold hsame h := by
    have hmem : .found row ∈ roll.rows := List.mem_of_getElem? hrow
    refine ⟨h.registered, h.inputs, ?_, ?_⟩
    · intro other hother
      rcases List.mem_or_eq_of_mem_set hother with hother | rfl
      · exact h.rows other hother
      · obtain ⟨selected, hfind, hrange, hrefs⟩ := h.rows _ hmem
        exact ⟨selected, hfind, hrange, (hsame.map_ref hold).symm ▸ hrefs⟩
    · intro child hchild
      rcases mem_children_or_of_set_row hchild with hchild | hchild
      · exact h.below child hchild
      · refine hsame.liesFrom hold (fun node hnode => ?_) hchild
        exact h.below node (mem_children_table_iff.2 (.inr (.inl ⟨_, hmem, hnode⟩)))
  bundle {roll index number nodes old new} hnodes hold hsame h := by
    have hmem := List.mem_of_getElem? hnodes
    refine ⟨h.registered, ?_, ?_⟩
    · intro others hothers
      rcases List.mem_or_eq_of_mem_set hothers with hothers | rfl
      · exact h.repeats others hothers
      · exact (hsame.map_ref hold).trans (h.repeats nodes hmem)
    · intro child hchild
      rcases mem_children_or_of_set_repeat hchild with hchild | hchild
      · exact h.below child hchild
      · refine hsame.liesFrom hold (fun node hnode => ?_) hchild
        exact h.below node (mem_children_bundle_iff.2 ⟨nodes, hmem, hnode⟩)

namespace Run
variable {r : Roller} {s s' : RollState}

/-- The references of a definition come to one node each, in order, under the path that they lead
to. -/
theorem refs_of_children {directory : Text} {context : Context} {stored : Bindings Int}
    {refs : List Reference} {nodes : List Node}
    (run : Run r (.children directory context stored refs) s nodes s') :
    nodes.map Node.ref = refs ∧ ∀ node ∈ nodes, node.LiesFrom r.registry directory := by
  have hanswers := run.answers_of_children
  clear run
  induction hanswers with
  | nil => exact ⟨rfl, nofun⟩
  | @cons ref node refs nodes hanswer _ ih =>
    refine ⟨by rw [List.map_cons, hanswer.ref_eq, ih.1], ?_⟩
    intro other hother
    rcases List.mem_cons.1 hother with rfl | hother
    · have hpath := hanswer.path_eq
      rw [← hanswer.ref_eq] at hpath
      exact hpath
    · exact ih.2 other hother

/-- A row that is rolled is a row of the table, and the nodes in it lie where their references
lead. -/
theorem row_conforms {b : Batch} {ignored : List Int} {row : RowRoll}
    (run : Run r (.row b ignored) s (some row) s') :
    row.Conforms b.table ∧ ∀ node ∈ row.nested, node.LiesFrom r.registry b.table.path := by
  cases run with
  | missing _ hfind => exact ⟨hfind, nofun⟩
  | found _ hfind hresolve nestedRun =>
    obtain ⟨hrefs, hlies⟩ := nestedRun.refs_of_children
    rw [Template.refs_of_resolve hresolve] at hrefs
    refine ⟨⟨_, hfind, rfl, ?_⟩, hlies⟩
    rw [hrefs]
    exact Template.followed_sublist _ _

theorem rows_conform {b : Batch} {ignored : List Int} {count : Nat} {rows : List RowRoll}
    (run : Run r (.rows b ignored count) s rows s') {row : RowRoll} (hrow : row ∈ rows) :
    row.Conforms b.table ∧ ∀ node ∈ row.nested, node.LiesFrom r.registry b.table.path := by
  obtain ⟨_, _, _, ⟨rowRun⟩⟩ := run.row_of_mem hrow
  exact rowRun.row_conforms

theorem liesFrom_of_extra {context : Context} {table : Table} {inputs : Bindings (List Text)}
    {extra : List Resolved × List Node} (run : Run r (.extra context table inputs) s extra s') :
    ∀ node ∈ extra.2, node.LiesFrom r.registry table.path := by
  cases run with
  | noExtra _ => exact nofun
  | extra _ _ nodesRun => exact nodesRun.refs_of_children.2

theorem refs_of_repeats {context : Context} {bundle : Bundle} {count : Nat}
    {repeats : List (List Node)} (run : Run r (.repeats context bundle count) s repeats s')
    {nodes : List Node} (hnodes : nodes ∈ repeats) :
    nodes.map Node.ref = bundle.refs ∧ ∀ node ∈ nodes, node.LiesFrom r.registry bundle.path := by
  obtain ⟨_, _, ⟨nodesRun⟩⟩ := run.repeat_of_mem hnodes
  exact nodesRun.refs_of_children

end Run

namespace Roller

/-- Whatever a registered definition is made into conforms to the registry. -/
theorem Makes.conforms {r : Roller} {context : Context} {ref : Reference} {d : Definition}
    {node : Node} (hget : r.registry.get? d.path = some d) (h : r.Makes context ref d node) :
    node.Conforms r.registry := by
  cases h with
  | table inputsRun rowsRun extraRun =>
    have hinputs := List.forall₂_map_left_iff.1 inputsRun.answers_of_children
    refine ⟨hget, hinputs.imp fun _ _ hanswer => hanswer.ref_eq,
      fun row hrow => (rowsRun.rows_conform hrow).1, ?_⟩
    · intro child hchild
      rcases Node.mem_children_table_iff.1 hchild with hinput | ⟨row, hrow, hnested⟩ | hextra
      · exact inputsRun.refs_of_children.2 child hinput
      · exact (rowsRun.rows_conform hrow).2 child hnested
      · exact extraRun.liesFrom_of_extra child hextra
  | bundle repeatsRun =>
    refine ⟨hget, fun nodes hnodes => (repeatsRun.refs_of_repeats hnodes).1, ?_⟩
    intro child hchild
    obtain ⟨nodes, hnodes, hmem⟩ := Node.mem_children_bundle_iff.1 hchild
    exact (repeatsRun.refs_of_repeats hnodes).2 child hmem

/-- Nodes keep conforming to a registry, whatever is rolled again with it. -/
theorem conforms_lasts (registry : Registry) :
    Lasting (fun r => r.registry = registry) (Node.Conforms registry) where
  leaf _ _ := trivial
  made hr hget hmade := hr ▸ hmade.conforms (hr ▸ hget)
  row {r _ roll table new _ _ _} index hr hget hold rowsRun := by
    -- The table that is registered now is the one that was rolled before.
    rw [hr] at hget
    have hsame := hold.registered.symm.trans hget
    obtain rfl : roll.table = table := Definition.table.inj (Option.some.inj hsame)
    obtain ⟨hnew, hlies⟩ := rowsRun.rows_conform (List.mem_cons_self ..)
    rw [hr] at hlies
    refine ⟨hold.registered, hold.inputs, ?_, ?_⟩
    · intro row hrow
      rcases List.mem_or_eq_of_mem_set hrow with hrow | rfl
      · exact hold.rows row hrow
      · exact hnew
    · intro child hchild
      rcases Node.mem_children_or_of_set_row hchild with hchild | hchild
      · exact hold.below child hchild
      · exact hlies child hchild
  nodes {r _ roll bundle new _ _} index hr hget hold nodesRun := by
    rw [hr] at hget
    have hsame := hold.registered.symm.trans hget
    obtain rfl : roll.bundle = bundle := Definition.bundle.inj (Option.some.inj hsame)
    obtain ⟨hnew, hlies⟩ := nodesRun.refs_of_children
    rw [hr] at hlies
    refine ⟨hold.registered, ?_, ?_⟩
    · intro nodes hnodes
      rcases List.mem_or_eq_of_mem_set hnodes with hnodes | rfl
      · exact hold.repeats nodes hnodes
      · exact hnew
    · intro child hchild
      rcases Node.mem_children_or_of_set_repeat hchild with hchild | hchild
      · exact hold.below child hchild
      · exact hlies child hchild
  exchange := Node.conforms_exchangeable registry

/-- Every node of an outcome that came of a registry, with any number of parts rolled again by the
same registry after that, conforms to the registry. -/
theorem conforms_of_reachable (registry : Registry) (root : Node)
    (hroot : ReachableBy (fun r => r.registry = registry) root) (level : Nat) (node : Node)
    (hnode : root.Below level node) : node.Conforms registry :=
  (conforms_lasts registry).throughout_of_reachable hroot level node hnode

/-- Rolling in a circle was cut off by a leaf two levels below the root. Rolled again with a higher
limit, the leaf becomes a table, which is the one that the registry has under its path. -/
theorem loop_conforms :
    ∃ root s leaf roll node t table,
      ((Roller.mk .loop SplitMix.source 0).resolve "/" .root (.toPath "/loop")).runFrom
        (.start default 7 (.empty default)) = (.ok root, s) ∧
      root.Below 2 leaf ∧ leaf.isLeaf ∧
      (Roller.mk .loop SplitMix.source 1).reroll [0, 0, 0, 0] root .root = .ok roll ∧
      roll.runFrom (.start default 0 (.empty default)) = (.ok node, t) ∧
      node.Below 2 (.table table) ∧ table.Conforms .loop := by
  obtain ⟨root, s, hroot, hany⟩ := Roll.exists_ok_of_any
    (m := (Roller.mk .loop SplitMix.source 0).resolve "/" .root (.toPath "/loop"))
    (s := .start default 7 (.empty default))
    (p := fun root => (root.children.any fun inner => inner.children.any Node.isLeaf) &&
      ((Roller.mk .loop SplitMix.source 1).reroll [0, 0, 0, 0] root .root).toOption.any fun roll =>
        (roll.runFrom (.start default 0 (.empty default))).1.toOption.any fun node =>
          node.children.any fun inner => inner.children.any fun sub => !sub.isLeaf)
    (by decide +kernel)
  obtain ⟨hleaf, hany⟩ := Bool.and_eq_true_iff.1 hany
  obtain ⟨inner, hinner, hleaf⟩ := List.any_eq_true.1 hleaf
  obtain ⟨leaf, hmem, hleaf⟩ := List.any_eq_true.1 hleaf
  cases hreroll : (Roller.mk .loop SplitMix.source 1).reroll [0, 0, 0, 0] root .root with
  | error fault =>
    rw [hreroll] at hany
    cases hany
  | ok roll =>
    rw [hreroll] at hany
    obtain ⟨node, t, hnode, hany⟩ := Roll.exists_ok_of_any hany
    obtain ⟨above, habove, hany⟩ := List.any_eq_true.1 hany
    obtain ⟨sub, hsub, hrolled⟩ := List.any_eq_true.1 hany
    have hbelow : node.Below 2 sub := .child habove (.child hsub (.self sub))
    have hreachable : ReachableBy (fun r => r.registry = .loop) node :=
      .rerolled _ (by rfl) .root _ (.resolved _ (by rfl) _ _ _ hroot) hreroll hnode
    have hconforms := conforms_of_reachable .loop node hreachable 2 sub hbelow
    cases sub with
    | table table =>
      exact ⟨root, s, leaf, roll, node, t, table, hroot, .child hinner (.child hmem (.self leaf)),
        hleaf, hreroll, hnode, hbelow, hconforms⟩
    | bundle bundle =>
      -- The registry has no bundle at all.
      have hget := hconforms.registered
      obtain hmem := List.mem_singleton.1 (List.mem_of_find?_eq_some hget)
      cases hmem
    | leaf ref path => cases hrolled

end Roller
end RandomTables
