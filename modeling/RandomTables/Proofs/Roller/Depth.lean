import Mathlib.Data.List.Forall2
import RandomTables.Proofs.Roller.Rolled
import RandomTables.Proofs.Roller.Success

/-!
# Depth and leaves

References may lead back to where they stand, so what ends the rolling is the depth alone: a
definition within the limit has its references rolled one level deeper, and beyond it they become
leaves. A reference within the limit becomes a leaf exactly if there is no definition under its
path. In an outcome both can be told from the level at which a node stands.
-/
namespace RandomTables

/-- A node is what came of a reference in the definition at `directory`, which was rolled at this
depth. -/
structure Roller.Answers (r : Roller) (depth : Int) (directory : Text) (ref : Reference)
    (node : Node) : Prop where
  ref_eq : node.ref = ref
  path_eq : node.path = r.pathOf directory ref
  isLeaf_iff : node.isLeaf ↔
    r.maxDepth < depth ∨ r.registry.get? (r.pathOf directory ref) = none

namespace Run
variable {r : Roller} {s s' : RollState} {directory : Text} {context : Context}

/-! ## References -/

/-- A reference that is rolled becomes a leaf exactly if there is no definition under its path. -/
theorem answers_of_reference {ref : Reference} {node : Node}
    (run : Run r (.reference directory context ref) s node s') {depth : Int}
    (hdepth : depth ≤ r.maxDepth) : r.Answers depth directory ref node := by
  have hwithin : ¬ r.maxDepth < depth := by omega
  cases run with
  | leaf hget => exact ⟨rfl, rfl, by simp [Roller.leafOf, Node.isLeaf, hget]⟩
  | table hget inputsRun rowsRun extraRun =>
    exact ⟨rfl, Registry.path_of_get?_eq_some hget, by simp [Node.isLeaf, hget, hwithin]⟩
  | bundle hget repeatsRun =>
    exact ⟨rfl, Registry.path_of_get?_eq_some hget, by simp [Node.isLeaf, hget, hwithin]⟩

theorem answers_of_siblings {refs : List Reference} {nodes : List Node}
    (run : Run r (.siblings directory context refs) s nodes s') {depth : Int}
    (hdepth : depth ≤ r.maxDepth) : List.Forall₂ (r.Answers depth directory) refs nodes := by
  induction refs generalizing context s nodes with
  | nil =>
    cases run
    exact .nil
  | cons ref refs ih =>
    cases run with
    | cons first others => exact .cons (first.answers_of_reference hdepth) (ih others)

/-- The references of a definition come to one node each: beyond the limit to leaves, and within it
to what is rolled. -/
theorem answers_of_children {stored : Bindings Int} {refs : List Reference} {nodes : List Node}
    (run : Run r (.children directory context stored refs) s nodes s') :
    List.Forall₂ (r.Answers context.depth directory) refs nodes := by
  cases run with
  | within hdepth siblingsRun => exact siblingsRun.answers_of_siblings hdepth
  | beyond hdepth =>
    rw [List.forall₂_map_right_iff, List.forall₂_same]
    intro ref _
    exact ⟨rfl, rfl, by simp [Roller.leafOf, Node.isLeaf, hdepth]⟩

/-! ## Families -/

/-- The references that are followed in a row of a table were rolled for it. -/
theorem children_of_row {b : Batch} {ignored : List Int} {count : Nat} {rows : List RowRoll}
    (run : Run r (.rows b ignored count) s rows s') {row : RowContent} (hrow : .found row ∈ rows) :
    ∃ selected, b.table.findRow? row.total = some selected ∧ ∃ t t', Nonempty (Run r
      (.children b.table.path b.context row.stored (Template.followed selected.template row.text))
      t row.nested t') := by
  obtain ⟨_, _, _, ⟨rowRun⟩⟩ := run.row_of_mem hrow
  cases rowRun with
  | found hfresh hfind hresolve nestedRun =>
    rw [Template.refs_of_resolve hresolve] at nestedRun
    exact ⟨_, hfind, _, _, ⟨nestedRun⟩⟩

/-- The references of a family were rolled together, in the context of the node. -/
theorem children_of_family {ref : Reference} {node : Node}
    (run : Run r (.reference directory context ref) s node s') {refs : List Reference}
    {nodes : List Node} (h : node.Family refs nodes) :
    ∃ stored t t', Nonempty (Run r (.children node.path context stored refs) t nodes t') := by
  cases run with
  | leaf hget => cases h
  | table hget inputsRun rowsRun extraRun =>
    cases h with
    | inputs => exact ⟨_, _, _, ⟨inputsRun⟩⟩
    | row hrow hfind =>
      obtain ⟨selected, hselected, t, t', hrun⟩ := rowsRun.children_of_row hrow
      obtain rfl := Option.some.inj (hfind.symm.trans hselected)
      exact ⟨_, t, t', hrun⟩
    | extra htemplate =>
      cases extraRun with
      | noExtra hextra => cases hextra.symm.trans htemplate
      | extra hextra hresolve nodesRun =>
        obtain rfl := Option.some.inj (hextra.symm.trans htemplate)
        rw [Template.refs_of_resolve hresolve] at nodesRun
        exact ⟨_, _, _, ⟨nodesRun⟩⟩
  | bundle hget repeatsRun =>
    cases h with
    | «repeat» hnodes =>
      exact ⟨_, repeatsRun.repeat_of_mem hnodes⟩

/-- Every node directly below another one belongs to a family. -/
theorem family_of_mem_children {ref : Reference} {node child : Node}
    (run : Run r (.reference directory context ref) s node s') (h : child ∈ node.children) :
    ∃ refs nodes, node.Family refs nodes ∧ child ∈ nodes := by
  cases run with
  | leaf hget => cases h
  | table hget inputsRun rowsRun extraRun =>
    rcases Node.mem_children_table_iff.1 h with hinput | ⟨row, hrow, hnested⟩ | hextra
    · exact ⟨_, _, .inputs _, hinput⟩
    · cases row with
      | missing total => cases hnested
      | found row =>
        obtain ⟨selected, hselected, _⟩ := rowsRun.children_of_row hrow
        exact ⟨_, _, .row hrow hselected, hnested⟩
    · cases extraRun with
      | noExtra _ => cases hextra
      | extra htemplate _ _ => exact ⟨_, _, .extra htemplate, hextra⟩
  | bundle hget repeatsRun =>
    obtain ⟨nodes, hnodes, hchild⟩ := Node.mem_children_bundle_iff.1 h
    exact ⟨_, nodes, .repeat hnodes, hchild⟩

end Run

namespace Roller

/-- Rolling a reference comes to an end, whatever circles references form: where the dice of the
registry and of the reference have sides, it succeeds. Every node of the outcome that is no leaf was
rolled as deep as it stands below the root, one level beyond the limit at most unless the root was
rolled deeper. Each reference in its definition that was followed, be it of an input, a row, the
extra text or a bundle, has a node of its own below it, under the path that it leads to from there;
and that node is a leaf exactly if the definition lies beyond the limit or there is none under this
path. -/
theorem depth_and_leaves_of_resolve (r : Roller) (directory : Text) (context : Context)
    (ref : Reference) (s : RollState) :
    (r.registry.HasSides → ref.HasSides →
      ∃ node s', (r.resolve directory context ref).runFrom s = (.ok node, s')) ∧
    ∀ node s', (r.resolve directory context ref).runFrom s = (.ok node, s') →
      Nonempty (Run r (.reference directory context ref) s node s') ∧
      ∀ (run : Run r (.reference directory context ref) s node s') level sub,
        node.Below level sub → sub.isLeaf = false →
          run.RolledAt (context.depth + level) sub ∧
          context.depth + level ≤ max context.depth (r.maxDepth + 1) ∧
          (∀ child ∈ sub.children, ∃ refs nodes, sub.Family refs nodes ∧ child ∈ nodes) ∧
          ∀ refs nodes, sub.Family refs nodes →
            List.Forall₂ (r.Answers (context.depth + level) sub.path) refs nodes := by
  refine ⟨?_, ?_⟩
  · intro hregistry href
    obtain ⟨node, s', hrun, _⟩ := resolve_succeeds hregistry directory context href s
    exact ⟨node, s', hrun⟩
  · intro node s' h
    refine ⟨succeeds_iff_run.1 h, ?_⟩
    intro run level sub hsub hleaf
    have hrolled : run.RolledAt (context.depth + level) sub :=
      run.rolledAt_of_below (List.mem_singleton_self node) hsub hleaf
    refine ⟨hrolled, hrolled.depth_le, ?_⟩
    obtain ⟨directory', context', ref', t, t', subRun, _, hdepth⟩ := hrolled
    refine ⟨fun child hchild => subRun.family_of_mem_children hchild, ?_⟩
    intro refs nodes hfamily
    obtain ⟨stored, u, u', ⟨childrenRun⟩⟩ := subRun.children_of_family hfamily
    rw [← hdepth]
    exact childrenRun.answers_of_children

end Roller

/-- A registry of one table, whose only row leads back to it. -/
def Registry.loop : Registry :=
  .ofDefinitions "/" [
    .table ⟨"/loop", "Loop", .dice 1 1 false,
      [⟨[.reference (.toPath "/loop") none], .single 1, "[[/loop]]"⟩], .empty, none⟩]

namespace Roller

theorem loop_hasSides : Registry.loop.HasSides := by
  intro path d hget
  obtain rfl := List.mem_singleton.1 (List.mem_of_find?_eq_some hget)
  refine ⟨⟨?_, ?_, ?_⟩, Int.one_pos⟩
  · intro row hrow
    obtain rfl := List.mem_singleton.1 hrow
    simp [Component.AllHaveSides, Component.HasSides, Reference.HasSides, Instructions.HasSides,
      Reference.toPath, Instructions.plain]
  · intro e he
    cases he
  · intro template h
    cases h

/-- Where rolling goes in a circle, the table two levels below the root is one beyond the limit of
one. It is rolled, and the reference in it becomes a leaf although there is a table under its
path. -/
theorem loop_depth_and_leaves :
    Registry.loop.HasSides ∧ (Reference.toPath "/loop").HasSides ∧ ∃ node s' sub child,
      ((Roller.mk .loop SplitMix.source 1).resolve "/" .root (.toPath "/loop")).runFrom
        (.start default 7 (.empty default)) = (.ok node, s') ∧
      node.Below 2 sub ∧ sub.isLeaf = false ∧ (0 : Int) + 2 ≤ max 0 (1 + 1) ∧
      child ∈ sub.children ∧ child.isLeaf ∧ child.path = "/loop" ∧
      (Registry.loop.get? "/loop").isSome := by
  have hplain : (Reference.toPath "/loop").HasSides := by
    intro e he
    cases he
  refine ⟨loop_hasSides, hplain, ?_⟩
  obtain ⟨hends, hrule⟩ := depth_and_leaves_of_resolve ⟨.loop, SplitMix.source, 1⟩ "/" .root
    (.toPath "/loop") (.start default 7 (.empty default))
  obtain ⟨node, s', hrun⟩ := hends loop_hasSides hplain
  have hany : (((Roller.mk .loop SplitMix.source 1).resolve "/" .root (.toPath "/loop")).runFrom
      (.start default 7 (.empty default))).1.toOption.any fun node =>
        node.children.any fun inner => inner.children.any fun sub =>
          !sub.isLeaf && sub.children.any fun child => child.isLeaf && child.path = "/loop" := by
    decide +kernel
  rw [hrun] at hany
  obtain ⟨inner, hinner, hany⟩ := List.any_eq_true.1 hany
  obtain ⟨sub, hsub, hany⟩ := List.any_eq_true.1 hany
  obtain ⟨hleaf, hany⟩ := Bool.and_eq_true_iff.1 hany
  obtain ⟨child, hchild, hany⟩ := List.any_eq_true.1 hany
  obtain ⟨hcut, hpath⟩ := Bool.and_eq_true_iff.1 hany
  have hbelow : node.Below 2 sub := .child hinner (.child hsub (.self sub))
  obtain ⟨⟨run⟩, hnodes⟩ := hrule node s' hrun
  obtain ⟨_, hbound, _⟩ := hnodes run 2 sub hbelow (by simpa using hleaf)
  exact ⟨node, s', sub, child, hrun, hbelow, by simpa using hleaf, hbound, hchild, hcut,
    by simpa using hpath, by decide +kernel⟩

end Roller
end RandomTables
