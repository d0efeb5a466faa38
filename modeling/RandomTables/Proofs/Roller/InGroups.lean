import RandomTables.Proofs.Roll.Reproducible
import RandomTables.Proofs.Roll.Seeded
import RandomTables.Roller.Reroll

/-!
# Rolling references draws in groups

Rows, tables, bundles and whole trees of references draw their dice through groups only, and log
nothing else that holds dice; so does rolling a part of a tree again. What is said of a row holds
whatever way its references are rolled in, as long as that draws in groups.

It follows that a replay of the dice reproduces all of this, and that the time and the log have no
say in it.
-/
namespace RandomTables
open Roll (InGroups Reproducible Seeded)

namespace Batch

/-- A way to roll references, given the source, that draws in groups. -/
def ChildrenInGroups (children : Source → ChildRoller) : Prop :=
  ∀ directory context stored refs,
    InGroups fun source => children source directory context stored refs

variable {children : Source → ChildRoller}

theorem rollRow_inGroups (hchildren : ChildrenInGroups children) (b : Batch) (total : Int) :
    InGroups fun source => b.rollRow source (children source) total := by
  unfold rollRow
  cases b.table.findRow? total with
  | none => exact .pure _
  | some row =>
    refine (Template.resolve_onlyDice _ _ row.template).inGroups.bind fun found => ?_
    exact (hchildren b.table.path b.context found.stored found.refs).bind fun nested => .pure _

theorem rollNext_inGroups (hchildren : ChildrenInGroups children) (b : Batch)
    (ignored : List Int) : InGroups fun source => b.rollNext source (children source) ignored := by
  refine (b.rollFresh_onlyDice ignored maxTries).inGroups.bind fun fresh => ?_
  cases fresh with
  | none => exact .pure none
  | some total =>
    refine (b.rollRow_inGroups hchildren total).bind fun row => ?_
    exact (InGroups.logEvent (b.lookupOf row) rfl).bind fun _ => .pure (some row)

theorem rollRows_inGroups (hchildren : ChildrenInGroups children) (b : Batch)
    (ignored : List Int) (count : Nat) :
    InGroups fun source => b.rollRows source (children source) ignored count := by
  induction count generalizing ignored with
  | zero => exact .pure []
  | succ count ih =>
    refine (b.rollNext_inGroups hchildren ignored).bind fun next => ?_
    cases next with
    | none => exact .pure []
    | some row => exact (ih (b.ignoredAfter ignored row)).bind fun rows => .pure (row :: rows)

end Batch

namespace Roller
open Batch (ChildrenInGroups)
variable {children : Source → ChildRoller}

/-- The same roller with another source. -/
def drawingFrom (r : Roller) (source : Source) : Roller := { r with source := source }

theorem rollExtra_inGroups (r : Roller) (hchildren : ChildrenInGroups children)
    (context : Context) (table : Table) (inputs : Bindings (List Text)) :
    InGroups fun source =>
      (r.drawingFrom source).rollExtra (children source) context table inputs := by
  unfold rollExtra
  cases table.extra with
  | none => exact .pure _
  | some template =>
    refine (Template.resolve_onlyDice _ _ template).inGroups.bind fun found => ?_
    exact (hchildren table.path context .empty found.refs).bind fun nodes => .pure _

theorem rollTable_inGroups (r : Roller) (hchildren : ChildrenInGroups children)
    (context : Context) (ref : Reference) (table : Table) :
    InGroups fun source =>
      (r.drawingFrom source).rollTable (children source) context ref table := by
  refine (hchildren table.path context .empty _).bind fun inputs => ?_
  refine (Batch.rollRows_inGroups hchildren _ _ _).bind fun rows => ?_
  exact (r.rollExtra_inGroups hchildren context table _).bind fun extra => .pure _

theorem rollRepeats_inGroups (hchildren : ChildrenInGroups children) (context : Context)
    (bundle : Bundle) (count : Nat) :
    InGroups fun source => rollRepeats (children source) context bundle count := by
  induction count with
  | zero => exact .pure []
  | succ count ih =>
    refine (hchildren bundle.path context .empty bundle.refs).bind fun nodes => ?_
    exact ih.bind fun repeats => .pure (nodes :: repeats)

theorem rollDefinition_inGroups (r : Roller) (hchildren : ChildrenInGroups children)
    (context : Context) (ref : Reference) (d : Definition) :
    InGroups fun source =>
      (r.drawingFrom source).rollDefinition (children source) context ref d := by
  cases d with
  | table table =>
    exact (r.rollTable_inGroups hchildren context ref table).bind fun _ => .pure _
  | bundle bundle =>
    have h := rollRepeats_inGroups hchildren context bundle (ref.instructions.count context)
    exact (h.bind fun repeats => .pure (BundleRoll.mk ref bundle repeats)).bind fun _ => .pure _

theorem rollReference_inGroups (r : Roller) (hchildren : ChildrenInGroups children)
    (directory : Text) (context : Context) (ref : Reference) :
    InGroups fun source =>
      (r.drawingFrom source).rollReference (children source) directory context ref := by
  have hregistry : ∀ source, (r.drawingFrom source).registry.get?
      ((r.drawingFrom source).pathOf directory ref) =
        r.registry.get? (r.pathOf directory ref) := fun _ => rfl
  simp only [rollReference, hregistry]
  cases r.registry.get? (r.pathOf directory ref) with
  | none => exact .pure (r.leafOf directory ref)
  | some d => exact r.rollDefinition_inGroups hchildren context ref d

theorem rollSiblings_inGroups {roll : Source → Context → Reference → Roll Node}
    (hroll : ∀ context ref, InGroups fun source => roll source context ref)
    (context : Context) (refs : List Reference) :
    InGroups fun source => rollSiblings (roll source) context refs := by
  induction refs generalizing context with
  | nil => exact .pure []
  | cons ref rest ih =>
    refine (hroll context ref).bind fun node => ?_
    exact (ih (context.extended node.exports)).bind fun nodes => .pure (node :: nodes)

theorem childrenAt_inGroups (r : Roller) (levels : Nat) :
    ChildrenInGroups fun source => (r.drawingFrom source).childrenAt levels := by
  induction levels with
  | zero =>
    intro directory context stored refs
    exact InGroups.pure (refs.map (r.leafOf directory))
  | succ levels ih =>
    intro directory context stored refs
    exact rollSiblings_inGroups (r.rollReference_inGroups ih directory) _ refs

theorem children_inGroups (r : Roller) (context : Context) :
    ChildrenInGroups fun source => (r.drawingFrom source).children context :=
  r.childrenAt_inGroups (r.levelsBelow context.depth)

theorem resolve_inGroups (r : Roller) (directory : Text) (context : Context) (ref : Reference) :
    InGroups fun source => (r.drawingFrom source).resolve directory context ref :=
  r.rollReference_inGroups (r.children_inGroups context) directory context ref

/-! ## Rolling a part again -/

/-- Where a computation can be refused, but draws in groups if it is not, every one that is not
refused is had from such a computation. -/
theorem exists_inGroups_of_ok {ε α : Type} {f : Source → Except ε (Roll α)}
    (h : (∃ fault, ∀ source, f source = .error fault) ∨
      ∃ roll : Source → Roll α, InGroups roll ∧ ∀ source, f source = .ok (roll source))
    {source : Source} {m : Roll α} (hm : f source = .ok m) :
    ∃ roll, InGroups roll ∧ roll source = m := by
  rcases h with ⟨fault, hfault⟩ | ⟨roll, hroll, hok⟩
  · rw [hfault] at hm
    cases hm
  · rw [hok] at hm
    exact ⟨roll, hroll, Except.ok.inj hm⟩

theorem rerollRow_inGroups (r : Roller) (context : Context) (roll : TableRoll) (index : Nat)
    (row : RowRoll) (table : Table) :
    InGroups fun source => (r.drawingFrom source).rerollRow context roll index row table :=
  (Batch.rollRows_inGroups (r.children_inGroups context) _ _ 1).bind fun _ => .pure _

/-- Whether a target can be rolled again does not depend on the source, and if it can, doing so
draws in groups. -/
theorem rerollTarget_inGroups (r : Roller) (context : Context) (target : Target) :
    (∃ fault, ∀ source, (r.drawingFrom source).rerollTarget context target = .error fault) ∨
      ∃ roll : Source → Roll Piece, InGroups roll ∧
        ∀ source, (r.drawingFrom source).rerollTarget context target = .ok (roll source) := by
  have hregistry : ∀ source, (r.drawingFrom source).registry = r.registry := fun _ => rfl
  cases target with
  | node node =>
    simp only [rerollTarget, hregistry]
    cases r.registry.get? node.path with
    | none => exact .inl ⟨_, fun _ => rfl⟩
    | some d =>
      have h := r.rollDefinition_inGroups (r.children_inGroups context) context node.ref d
      exact .inr ⟨_, h.map Piece.node, fun _ => rfl⟩
  | row roll index row =>
    simp only [rerollTarget, hregistry]
    cases r.registry.get? roll.table.path with
    | none => exact .inl ⟨_, fun _ => rfl⟩
    | some d =>
      cases d with
      | bundle bundle => exact .inl ⟨_, fun _ => rfl⟩
      | table table =>
        have h := r.rerollRow_inGroups context roll index row table
        exact .inr ⟨_, h.map Piece.row, fun _ => rfl⟩
  | nodes roll index nodes =>
    simp only [rerollTarget, hregistry]
    cases r.registry.get? roll.bundle.path with
    | none => exact .inl ⟨_, fun _ => rfl⟩
    | some d =>
      cases d with
      | table table => exact .inl ⟨_, fun _ => rfl⟩
      | bundle bundle =>
        have h := r.children_inGroups context bundle.path context .empty bundle.refs
        exact .inr ⟨_, h.map Piece.nodes, fun _ => rfl⟩

/-- Rolling a part of a tree again draws in groups where it can be done at all. -/
theorem reroll_inGroups (r : Roller) (path : IndexPath) (root : Node) (context : Context) :
    (∃ fault, ∀ source, (r.drawingFrom source).reroll path root context = .error fault) ∨
      ∃ roll : Source → Roll Node, InGroups roll ∧
        ∀ source, (r.drawingFrom source).reroll path root context = .ok (roll source) := by
  unfold reroll
  cases root.locate? context path with
  | none => exact .inl ⟨_, fun _ => rfl⟩
  | some location =>
    obtain ⟨context', target⟩ := location
    rcases r.rerollTarget_inGroups context' target with ⟨fault, h⟩ | ⟨roll, hroll, h⟩
    · exact .inl ⟨fault, fun source => by simp only [h]; rfl⟩
    · have hlog := InGroups.logEvent (.reroll path target.path target.kindName) rfl
      refine .inr ⟨_, hroll.bind fun new => hlog.bind fun _ =>
        .pure ((root.replace? new path).getD root), fun source => ?_⟩
      simp only [h]
      rfl

/-! ## What follows -/

/-- Whatever a reference comes to, a replay of the dice it logged brings about again. -/
theorem resolve_reproducible (r : Roller) (directory : Text) (context : Context)
    (ref : Reference) :
    Reproducible fun source => (r.drawingFrom source).resolve directory context ref :=
  (r.resolve_inGroups directory context ref).reproducible

/-- Rolling a part of a tree again is reproducible where it can be done at all. -/
theorem reroll_reproducible (r : Roller) (path : IndexPath) (root : Node) (context : Context) :
    (∃ fault, ∀ source, (r.drawingFrom source).reroll path root context = .error fault) ∨
      ∃ roll : Source → Roll Node, Reproducible roll ∧
        ∀ source, (r.drawingFrom source).reroll path root context = .ok (roll source) := by
  rcases r.reroll_inGroups path root context with hfault | ⟨roll, hroll, hok⟩
  · exact .inl hfault
  · exact .inr ⟨roll, hroll.reproducible, hok⟩

/-- Rolling a target again reads the seed only. -/
theorem rerollTarget_seeded {r : Roller} {context : Context} {target : Target}
    {roll : Roll Piece} (h : r.rerollTarget context target = .ok roll) : Seeded roll := by
  obtain ⟨rollFrom, hgroups, rfl⟩ :=
    exists_inGroups_of_ok (r.rerollTarget_inGroups context target) h
  exact hgroups.seeded r.source

end Roller
end RandomTables
