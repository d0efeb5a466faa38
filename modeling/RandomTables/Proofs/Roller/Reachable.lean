import RandomTables.Proofs.Outcome.Replaced
import RandomTables.Proofs.Roller.Rolled
import RandomTables.Roller.Reroll

/-!
# Outcomes that can be reached

An outcome can be reached by resolving a reference and then rolling any number of its parts again.
Every node that this brings about is a leaf, was made of a registered definition, or came of such a
node when a row of it, a repeat, or a node below it was rolled again. Something that holds in the
first two cases and lasts through the third one holds throughout every outcome that can be reached
(`throughout_of_reachable`). So whatever is to be said about all these outcomes has to be shown of
single nodes only.
-/
namespace RandomTables
open Roll

namespace Roller

/-- A definition that was rolled in a context as a reference says came to this node. -/
inductive Makes (r : Roller) (context : Context) (ref : Reference) : Definition → Node → Prop where
  | table {table s s₁ s₂ s₃ inputs rows extra}
    (inputsRun :
      Run r (.children table.path context .empty (table.inputs.entries.map (·.2))) s inputs s₁)
    (rowsRun : Run r (.rows (.of context ref table inputs) (ref.instructions.ignored context)
      (ref.instructions.count context)) s₁ rows s₂)
    (extraRun : Run r (.extra context table (inputTexts table inputs)) s₂ extra s₃) :
    Makes r context ref (.table table) (.table ⟨ref, table, rows, extra.1, extra.2, inputs⟩)
  | bundle {bundle s s' repeats}
    (repeatsRun : Run r (.repeats context bundle (ref.instructions.count context)) s repeats s') :
    Makes r context ref (.bundle bundle) (.bundle ⟨ref, bundle, repeats⟩)

variable {r : Roller} {s s' : RollState}

theorem makes_of_rollDefinition {context : Context} {ref : Reference} {d : Definition}
    {node : Node}
    (h : (r.rollDefinition (r.children context) context ref d).runFrom s = (.ok node, s')) :
    r.Makes context ref d node := by
  cases d with
  | table table =>
    obtain ⟨roll, t, hroll, hnode⟩ := runFrom_bind_eq_ok_iff.1 h
    obtain ⟨rfl, rfl⟩ := runFrom_pure_eq_ok_iff.1 hnode
    obtain ⟨_, _, _, _, _, ⟨inputsRun⟩, ⟨rowsRun⟩, ⟨extraRun⟩, rfl⟩ :=
      runs_of_rollTable (children_traced context) hroll
    exact .table inputsRun rowsRun extraRun
  | bundle bundle =>
    obtain ⟨roll, t, hroll, hnode⟩ := runFrom_bind_eq_ok_iff.1 h
    obtain ⟨rfl, rfl⟩ := runFrom_pure_eq_ok_iff.1 hnode
    obtain ⟨_, ⟨repeatsRun⟩, rfl⟩ := run_of_rollBundle (children_traced context) hroll
    exact .bundle repeatsRun

/-- What a definition came to is a node of the reference under the path of the definition. -/
theorem Makes.origin {context : Context} {ref : Reference} {d : Definition} {node : Node}
    (h : r.Makes context ref d node) : node.ref = ref ∧ node.path = d.path := by
  cases h <;> exact ⟨rfl, rfl⟩

/-- A reference comes to a leaf, or to what a registered definition is made into. -/
theorem leaf_or_makes_of_run {directory : Text} {context : Context} {ref : Reference} {node : Node}
    (run : Run r (.reference directory context ref) s node s') :
    node.isLeaf ∨ ∃ d, r.registry.get? d.path = some d ∧ r.Makes context ref d node := by
  cases run with
  | leaf _ => exact .inl rfl
  | table hget inputsRun rowsRun extraRun =>
    exact .inr ⟨_, Registry.get?_path_of_get?_eq_some hget, .table inputsRun rowsRun extraRun⟩
  | bundle hget repeatsRun =>
    exact .inr ⟨_, Registry.get?_path_of_get?_eq_some hget, .bundle repeatsRun⟩

/-- An outcome came of a reference, with any number of parts rolled again after that. The registry,
the source, the limit, the context and the state may be others each time. -/
inductive Reachable : Node → Prop where
  | resolved (r : Roller) (directory : Text) (context : Context) (ref : Reference)
    {s s' : RollState} {node : Node}
    (h : (r.resolve directory context ref).runFrom s = (.ok node, s')) : Reachable node
  | rerolled (r : Roller) (context : Context) (path : IndexPath) {root node : Node}
    {roll : Roll Node} {s s' : RollState} (hroot : Reachable root)
    (hroll : r.reroll path root context = .ok roll) (h : roll.runFrom s = (.ok node, s')) :
    Reachable node

/-- An outcome came of a reference, with any number of parts rolled again after that, and each time
it was one of these rollers that was used. -/
inductive ReachableBy (rollers : Roller → Prop) : Node → Prop where
  | resolved (r : Roller) (hr : rollers r) (directory : Text) (context : Context) (ref : Reference)
    {s s' : RollState} {node : Node}
    (h : (r.resolve directory context ref).runFrom s = (.ok node, s')) : ReachableBy rollers node
  | rerolled (r : Roller) (hr : rollers r) (context : Context) (path : IndexPath) {root node : Node}
    {roll : Roll Node} {s s' : RollState} (hroot : ReachableBy rollers root)
    (hroll : r.reroll path root context = .ok roll) (h : roll.runFrom s = (.ok node, s')) :
    ReachableBy rollers node

theorem Reachable.reachableBy {root : Node} (h : Reachable root) :
    ReachableBy (fun _ => True) root := by
  induction h with
  | resolved r directory context ref h => exact .resolved r trivial directory context ref h
  | rerolled r context path _ hroll h ih => exact .rerolled r trivial context path ih hroll h

/-- When a part was rolled again, there was a target at the path, a new piece was rolled for it, and
the outcome has the piece in its place. Nothing is rolled after the piece. -/
theorem reroll_succeeds_iff {path : IndexPath} {root node : Node} {context : Context} :
    (∃ roll, r.reroll path root context = .ok roll ∧ roll.runFrom s = (.ok node, s')) ↔
      ∃ l pieceRoll new t, root.locate? context path = some l ∧
        r.rerollTarget l.context l.target = .ok pieceRoll ∧ pieceRoll.runFrom s = (.ok new, t) ∧
        node = (root.replace? new path).getD root ∧
        s' = { t with
          log := t.log.add t.now (.reroll path l.target.path l.target.kindName) } := by
  unfold reroll
  constructor
  · rintro ⟨roll, hroll, h⟩
    split at hroll
    · cases hroll
    · next rolledIn target hlocate =>
      cases hpiece : r.rerollTarget rolledIn target with
      | error fault =>
        rw [hpiece] at hroll
        cases hroll
      | ok pieceRoll =>
        rw [hpiece] at hroll
        obtain rfl := Except.ok.inj hroll
        obtain ⟨new, t, hnew, h⟩ := runFrom_bind_eq_ok_iff.1 h
        obtain ⟨_, u, hlog, h⟩ := runFrom_bind_eq_ok_iff.1 h
        obtain ⟨rfl, rfl⟩ := runFrom_pure_eq_ok_iff.1 h
        obtain ⟨_, rfl⟩ := Prod.mk.inj hlog
        exact ⟨_, _, new, t, hlocate, hpiece, hnew, rfl, rfl⟩
  · rintro ⟨l, pieceRoll, new, t, hlocate, hpiece, hnew, rfl, rfl⟩
    simp only [hlocate, hpiece]
    exact ⟨_, rfl, runFrom_bind_of_ok hnew⟩

/-- What the rows of a table have in common when one of them is rolled again. -/
def batchAgain (context : Context) (roll : TableRoll) (table : Table) : Batch :=
  ⟨table, context, roll.ref.instructions, inputTexts roll.table roll.inputs⟩

/-- A row that is rolled again is the first row of a batch, unless it stays as it was. -/
theorem eq_or_run_of_rerollRow {context : Context} {roll : TableRoll} {index : Nat}
    {row new : RowRoll} {table : Table}
    (h : (r.rerollRow context roll index row table).runFrom s = (.ok new, s')) :
    new = row ∨ ∃ rest t, Nonempty (Run r (.rows (batchAgain context roll table)
      (roll.ref.instructions.ignored context ++ takenTotals roll index) 1) s (new :: rest) t) := by
  obtain ⟨rows, t, hrows, hnew⟩ := runFrom_bind_eq_ok_iff.1 h
  obtain ⟨rfl, rfl⟩ := runFrom_pure_eq_ok_iff.1 hnew
  have hrun := (succeeds_iff_run (j := .rows (batchAgain context roll table)
    (roll.ref.instructions.ignored context ++ takenTotals roll index) 1)).1 hrows
  cases rows with
  | nil => exact .inl rfl
  | cons new rest => exact .inr ⟨rest, _, hrun⟩

/-! ## What lasts -/

/-- Something holds of every leaf and of whatever these rollers make of a registered definition, and
it still holds of a table or bundle after one of them has rolled a row or repeat of it again, and
after a node below it was exchanged for one of the same origin. -/
structure Lasting (rollers : Roller → Prop) (P : Node → Prop) : Prop where
  leaf (ref : Reference) (path : Text) : P (.leaf ref path)
  made {r : Roller} {context : Context} {ref : Reference} {d : Definition} {node : Node} :
    rollers r → r.registry.get? d.path = some d → r.Makes context ref d node → P node
  row {r : Roller} {context : Context} {roll : TableRoll} {table : Table} {new : RowRoll}
    {rest : List RowRoll} {s s' : RollState} (index : Nat) :
    rollers r → r.registry.get? roll.table.path = some (.table table) → P (.table roll) →
      Run r (.rows (batchAgain context roll table)
        (roll.ref.instructions.ignored context ++ takenTotals roll index) 1) s (new :: rest) s' →
      P (.table { roll with rows := roll.rows.set index new })
  nodes {r : Roller} {context : Context} {roll : BundleRoll} {bundle : Bundle} {new : List Node}
    {s s' : RollState} (index : Nat) :
    rollers r → r.registry.get? roll.bundle.path = some (.bundle bundle) → P (.bundle roll) →
      Run r (.children bundle.path context .empty bundle.refs) s new s' →
      P (.bundle { roll with repeats := roll.repeats.set index new })
  exchange : Node.Exchangeable P

namespace Lasting
variable {rollers : Roller → Prop} {P : Node → Prop} (hP : Lasting rollers P)
include hP

/-- Whatever a job comes to, it holds throughout all nodes of it. -/
theorem throughout_of_run (hr : rollers r) {j : Job} {a : j.Yield} (run : Run r j s a s') :
    ∀ node ∈ j.nodes a, node.Throughout P := by
  intro node hnode level sub hsub
  cases hleaf : sub.isLeaf with
  | true =>
    cases sub with
    | leaf ref path => exact hP.leaf ref path
    | table roll => cases hleaf
    | bundle roll => cases hleaf
  | false =>
    obtain ⟨_, _, _, _, _, subRun, _⟩ := run.rolledAt_of_below hnode hsub hleaf
    rcases leaf_or_makes_of_run subRun with hsubLeaf | ⟨d, hget, hmade⟩
    · rw [hleaf] at hsubLeaf
      cases hsubLeaf
    · exact hP.made hr hget hmade

/-- It holds throughout whatever a registered definition is made into. -/
theorem throughout_of_makes (hr : rollers r) {context : Context} {ref : Reference} {d : Definition}
    {node : Node} (hget : r.registry.get? d.path = some d) (h : r.Makes context ref d node) :
    node.Throughout P := by
  refine Node.throughout_iff.2 ⟨hP.made hr hget h, ?_⟩
  intro child hchild
  cases h with
  | table inputsRun rowsRun extraRun =>
    rcases Node.mem_children_table_iff.1 hchild with hinput | ⟨row, hrow, hnested⟩ | hextra
    · exact hP.throughout_of_run hr inputsRun child hinput
    · exact hP.throughout_of_run hr rowsRun child (List.mem_flatMap.2 ⟨row, hrow, hnested⟩)
    · exact hP.throughout_of_run hr extraRun child hextra
  | bundle repeatsRun => exact hP.throughout_of_run hr repeatsRun child hchild

/-- What takes the place of a target keeps it throughout the node that holds the target; and a node
that takes the place of another one has the same origin. -/
theorem throughout_of_rerollTarget (hr : rollers r) {context : Context} {target : Target}
    {roll : Roll Piece} {new : Piece} (hroll : r.rerollTarget context target = .ok roll)
    (h : roll.runFrom s = (.ok new, s')) (hstands : target.Stands)
    (hparent : ∀ parent, target.parent? = some parent → parent.Throughout P)
    {holder : Node} (hholder : target.holder? new = some holder) :
    holder.Throughout P ∧ ∀ old, target = .node old → holder.SameOrigin old := by
  cases target with
  | node node =>
    simp only [rerollTarget] at hroll
    split at hroll
    · next d hget =>
      obtain rfl := Except.ok.inj hroll
      obtain ⟨found, hfound, rfl⟩ := runFrom_map_eq_ok_iff.1 h
      obtain rfl := Option.some.inj hholder
      have hmade := makes_of_rollDefinition hfound
      obtain ⟨href, hpath⟩ := hmade.origin
      have hregistered := Registry.get?_path_of_get?_eq_some hget
      refine ⟨hP.throughout_of_makes hr hregistered hmade, ?_⟩
      intro old hold
      obtain rfl := Target.node.inj hold
      exact ⟨href, hpath.trans (Registry.path_of_get?_eq_some hget)⟩
    · cases hroll
  | row parent index row =>
    have hold := hparent _ rfl
    simp only [rerollTarget] at hroll
    split at hroll
    · next table hget =>
      obtain rfl := Except.ok.inj hroll
      obtain ⟨found, hfound, rfl⟩ := runFrom_map_eq_ok_iff.1 h
      obtain rfl := Option.some.inj hholder
      refine ⟨?_, nofun⟩
      rcases eq_or_run_of_rerollRow hfound with rfl | ⟨rest, t, ⟨rowsRun⟩⟩
      · obtain ⟨hlt, rfl⟩ := List.getElem?_eq_some_iff.1 hstands
        rw [List.set_getElem_self]
        cases parent
        exact hold
      · have hself := hP.row index hr hget (Node.throughout_iff.1 hold).1 rowsRun
        refine Node.throughout_table_set hold hself fun node hnode => ?_
        exact hP.throughout_of_run hr rowsRun node
          (List.mem_flatMap.2 ⟨found, List.mem_cons_self .., hnode⟩)
    · cases hroll
  | nodes parent index nodes =>
    have hold := hparent _ rfl
    simp only [rerollTarget] at hroll
    split at hroll
    · next bundle hget =>
      obtain rfl := Except.ok.inj hroll
      obtain ⟨found, hfound, rfl⟩ := runFrom_map_eq_ok_iff.1 h
      obtain rfl := Option.some.inj hholder
      obtain ⟨nodesRun⟩ := (succeeds_iff_run
        (j := .children bundle.path context .empty bundle.refs)).1 hfound
      have hself := hP.nodes index hr hget (Node.throughout_iff.1 hold).1 nodesRun
      exact ⟨Node.throughout_bundle_set hold hself (hP.throughout_of_run hr nodesRun), nofun⟩
    · cases hroll

/-- It still holds throughout an outcome after a part was rolled again. -/
theorem throughout_of_reroll (hr : rollers r) {path : IndexPath} {root node : Node}
    {context : Context} {roll : Roll Node} (hroll : r.reroll path root context = .ok roll)
    (h : roll.runFrom s = (.ok node, s')) (hroot : root.Throughout P) : node.Throughout P := by
  obtain ⟨l, pieceRoll, new, t, hlocate, hpiece, hnew, rfl, _⟩ :=
    reroll_succeeds_iff.1 ⟨roll, hroll, h⟩
  cases hreplace : root.replace? new path with
  | none => exact hroot
  | some replaced =>
    have hparent : ∀ parent, l.target.parent? = some parent → parent.Throughout P := by
      intro parent hparent
      obtain ⟨level, hbelow⟩ := Node.below_of_locate? hlocate hparent
      exact hroot.of_below hbelow
    have hstands := Node.stands_of_locate? hlocate
    refine (Node.throughout_of_replace? hP.exchange hlocate hreplace hroot ?_ ?_).1
    · intro holder hholder
      exact (hP.throughout_of_rerollTarget hr hpiece hnew hstands hparent hholder).1
    · intro old holder hold hholder
      exact (hP.throughout_of_rerollTarget hr hpiece hnew hstands hparent hholder).2 old hold

/-- It holds throughout every outcome that can be reached by these rollers. -/
theorem throughout_of_reachable {root : Node} (h : ReachableBy rollers root) :
    root.Throughout P := by
  induction h with
  | resolved r hr directory context ref h =>
    obtain ⟨run⟩ := (succeeds_iff_run (j := .reference directory context ref)).1 h
    exact hP.throughout_of_run hr run _ (List.mem_singleton_self _)
  | rerolled r hr context path _ hroll h ih => exact hP.throughout_of_reroll hr hroll h ih

end Lasting
end Roller
end RandomTables
