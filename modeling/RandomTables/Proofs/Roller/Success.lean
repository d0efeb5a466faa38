import RandomTables.Proofs.Definition.Sides
import RandomTables.Proofs.Template.Followed
import RandomTables.Proofs.Template.Resolvable
import RandomTables.Roller.Resolve

/-!
# Rolling references that succeeds

Where all dice have sides, nothing that happens while a reference is rolled is a failure: a path
without definition, a total that no row covers, totals that are all ignored and references beyond
the limit are part of the outcome. References come up on the way, in the templates of the rows and
in the extra text, so what is carried along is that their dice have sides too.
-/
namespace RandomTables
open Roll (Succeeds)
open Component (AllHaveSides)

def Reference.AllHaveSides (refs : List Reference) : Prop := ∀ ref ∈ refs, ref.HasSides

/-- All dice that the table can roll have sides. -/
structure Table.HasSides (t : Table) : Prop extends t.PartsHaveSides where
  dice : t.dice.HasSides

/-- All dice that the definition can roll have sides. -/
def Definition.HasSides : Definition → Prop
  | table t => t.HasSides
  | bundle b => Reference.AllHaveSides b.refs

/-- All dice that the definitions can roll have sides. -/
def Registry.HasSides (r : Registry) : Prop := ∀ path d, r.get? path = some d → d.HasSides

namespace Template
variable (source : Source)

open Component (AllResolvable)

mutual

theorem resolvable_of_hasSides : (c : Component) → c.HasSides → c.Resolvable
  | .plain _, _ | .input _, _ | .reference _ _, _ => by
    simp only [Component.Resolvable]
  | .computed _ _, h => by
    rw [Component.HasSides] at h
    exact Component.resolvable_computed_iff.2 h
  | .percent _ _ inner, h => by
    rw [Component.HasSides] at h
    exact Component.resolvable_percent_iff.2 (allResolvable_of_allHaveSides inner h)

theorem allResolvable_of_allHaveSides : (cs : List Component) → AllHaveSides cs → AllResolvable cs
  | [], _ => by
    simp only [AllResolvable]
  | component :: rest, h => by
    obtain ⟨hfirst, hrest⟩ := Component.allHaveSides_cons_iff.1 h
    exact Component.allResolvable_cons_iff.2
      ⟨resolvable_of_hasSides component hfirst, allResolvable_of_allHaveSides rest hrest⟩

end

mutual

theorem referencesOne_haveSides :
    (c : Component) → c.HasSides → Reference.AllHaveSides (referencesOne c)
  | .plain _, _ | .input _, _ | .computed _ _, _ => by
    simp only [referencesOne]
    exact List.forall_mem_nil _
  | .percent _ _ inner, h => by
    rw [Component.HasSides] at h
    rw [referencesOne]
    exact references_haveSides inner h
  | .reference ref _, h => by
    rw [Component.HasSides] at h
    rw [referencesOne]
    exact List.forall_mem_singleton.2 h

/-- The dice of the references that are written in a template have sides. -/
theorem references_haveSides :
    (cs : List Component) → AllHaveSides cs → Reference.AllHaveSides (references cs)
  | [], _ => by
    simp only [references]
    exact List.forall_mem_nil _
  | component :: rest, h => by
    obtain ⟨hfirst, hrest⟩ := Component.allHaveSides_cons_iff.1 h
    rw [references]
    exact List.forall_mem_append.2
      ⟨referencesOne_haveSides component hfirst, references_haveSides rest hrest⟩

end

/-- A template can be resolved, and the dice of the references in it have sides. -/
theorem resolve_succeeds (s : Surroundings) (store : Bindings Text) {template : List Component}
    (h : AllHaveSides template) :
    Succeeds (resolve source s store template) fun found =>
      Reference.AllHaveSides found.refs := by
  have hsucceeds := resolve_succeeds_of_resolvable source s store
    (allResolvable_of_allHaveSides template h)
  refine hsucceeds.of_run fun t found t' hrun ref href => ?_
  rw [refs_of_resolve hrun] at href
  exact references_haveSides template h ref ((followed_sublist template found.text).mem href)

end Template

namespace Batch
variable {b : Batch} {source : Source} {children : ChildRoller}

/-- A way to roll references that succeeds where their dice have sides. -/
def SucceedingChildren (children : ChildRoller) : Prop :=
  ∀ directory context stored refs, Reference.AllHaveSides refs →
    Succeeds (children directory context stored refs) fun _ => True

/-- The dice that totals are rolled with have sides, and so have those of the rows. -/
structure HasSides (b : Batch) : Prop where
  table : b.table.HasSides
  instructions : b.instructions.HasSides

theorem rollTotal_succeeds (h : b.HasSides) : Succeeds (b.rollTotal source) fun _ => True := by
  unfold rollTotal
  cases b.instructions.total with
  | some total => exact .pure trivial
  | none =>
    have hdice : (b.instructions.dice.getD b.table.dice).HasSides := by
      cases hdice : b.instructions.dice with
      | none => exact h.table.dice
      | some e => exact h.instructions e hdice
    exact (Dice.Expr.evaluate_succeeds source _ hdice).bind fun found _ => .pure trivial

theorem rollFresh_succeeds (h : b.HasSides) (ignored : List Int) (tries : Nat) :
    Succeeds (b.rollFresh source ignored tries) fun _ => True := by
  induction tries with
  | zero => exact .pure trivial
  | succ tries ih =>
    refine (rollTotal_succeeds h).bind fun total _ => ?_
    by_cases hmem : total ∈ ignored
    · simpa only [if_pos hmem] using ih
    · simpa only [if_neg hmem] using .pure trivial

theorem rollRow_succeeds (h : b.HasSides) (hchildren : SucceedingChildren children) (total : Int) :
    Succeeds (b.rollRow source children total) fun _ => True := by
  unfold rollRow
  cases hfind : b.table.findRow? total with
  | none => exact .pure trivial
  | some row =>
    have hrow := h.table.rows row (List.mem_of_find?_eq_some hfind)
    refine (Template.resolve_succeeds source _ _ hrow).bind fun found hfound => ?_
    exact (hchildren _ _ _ _ hfound).bind fun nested _ => .pure trivial

theorem rollRows_succeeds (h : b.HasSides) (hchildren : SucceedingChildren children)
    (ignored : List Int) (count : Nat) :
    Succeeds (b.rollRows source children ignored count) fun _ => True := by
  induction count generalizing ignored with
  | zero => exact .pure trivial
  | succ count ih =>
    have hnext : Succeeds (b.rollNext source children ignored) fun _ => True := by
      refine (rollFresh_succeeds h ignored maxTries).bind fun fresh _ => ?_
      cases fresh with
      | none => exact .pure trivial
      | some total =>
        refine (rollRow_succeeds h hchildren total).bind fun row _ => ?_
        exact (Succeeds.logEvent _).bind fun _ _ => .pure trivial
    refine hnext.bind fun next _ => ?_
    cases next with
    | none => exact .pure trivial
    | some row => exact (ih (b.ignoredAfter ignored row)).bind fun rows _ => .pure trivial

end Batch

namespace Roller
open Batch (SucceedingChildren)
variable {r : Roller} {children : ChildRoller}

theorem rollTable_succeeds (hchildren : SucceedingChildren children) (context : Context)
    {ref : Reference} (href : ref.HasSides) {t : Table} (ht : t.HasSides) :
    Succeeds (r.rollTable children context ref t) fun _ => True := by
  have hinputs : Reference.AllHaveSides (t.inputs.entries.map (·.2)) := by
    intro ref' href'
    obtain ⟨e, he, rfl⟩ := List.mem_map.1 href'
    exact ht.inputs e he
  refine (hchildren _ _ _ _ hinputs).bind fun inputs _ => ?_
  have hbatch : Batch.HasSides ⟨t, context, ref.instructions, inputTexts t inputs⟩ := ⟨ht, href⟩
  refine (Batch.rollRows_succeeds hbatch hchildren _ _).bind fun rows _ => ?_
  have hextra : Succeeds (r.rollExtra children context t (inputTexts t inputs))
      fun _ => True := by
    unfold rollExtra
    cases htemplate : t.extra with
    | none => exact .pure trivial
    | some template =>
      refine (Template.resolve_succeeds r.source _ _ (ht.extra template htemplate)).bind
        fun found hfound => ?_
      exact (hchildren _ _ _ _ hfound).bind fun nodes _ => .pure trivial
  exact hextra.bind fun extra _ => .pure trivial

theorem rollRepeats_succeeds (hchildren : SucceedingChildren children) (context : Context)
    {b : Bundle} (hb : Reference.AllHaveSides b.refs) (count : Nat) :
    Succeeds (rollRepeats children context b count) fun _ => True := by
  induction count with
  | zero => exact .pure trivial
  | succ count ih =>
    refine (hchildren _ _ _ _ hb).bind fun nodes _ => ?_
    exact ih.bind fun repeats _ => .pure trivial

theorem rollDefinition_succeeds (hchildren : SucceedingChildren children) (context : Context)
    {ref : Reference} (href : ref.HasSides) {d : Definition} (hd : d.HasSides) :
    Succeeds (r.rollDefinition children context ref d) fun _ => True := by
  cases d with
  | table t => exact (rollTable_succeeds hchildren context href hd).bind fun _ _ => .pure trivial
  | bundle b =>
    have h := rollRepeats_succeeds hchildren context hd (ref.instructions.count context)
    exact (h.bind fun repeats _ => .pure trivial).bind (P := fun _ => True)
      fun _ _ => .pure trivial

theorem rollReference_succeeds (hregistry : r.registry.HasSides)
    (hchildren : SucceedingChildren children) (directory : Text) (context : Context)
    {ref : Reference} (href : ref.HasSides) :
    Succeeds (r.rollReference children directory context ref) fun _ => True := by
  unfold rollReference
  cases hget : r.registry.get? (r.pathOf directory ref) with
  | none => exact .pure trivial
  | some d => exact rollDefinition_succeeds hchildren context href (hregistry _ d hget)

theorem rollSiblings_succeeds {roll : Context → Reference → Roll Node}
    (hroll : ∀ context ref, ref.HasSides → Succeeds (roll context ref) fun _ => True)
    (context : Context) {refs : List Reference} (hrefs : Reference.AllHaveSides refs) :
    Succeeds (rollSiblings roll context refs) fun _ => True := by
  induction refs generalizing context with
  | nil => exact .pure trivial
  | cons ref rest ih =>
    refine (hroll context ref (hrefs ref (List.mem_cons_self ..))).bind fun node _ => ?_
    refine (ih (context.extended node.exports) ?_).bind fun nodes _ => .pure trivial
    exact fun ref' href' => hrefs ref' (List.mem_cons_of_mem _ href')

theorem childrenAt_succeeds (hregistry : r.registry.HasSides) (levels : Nat) :
    SucceedingChildren (r.childrenAt levels) := by
  induction levels with
  | zero =>
    intro directory context stored refs _
    exact .pure trivial
  | succ levels ih =>
    intro directory context stored refs hrefs
    exact rollSiblings_succeeds
      (fun context ref href => rollReference_succeeds hregistry ih directory context href) _ hrefs

/-- A reference can be rolled if all dice have sides. -/
theorem resolve_succeeds (hregistry : r.registry.HasSides) (directory : Text) (context : Context)
    {ref : Reference} (href : ref.HasSides) :
    Succeeds (r.resolve directory context ref) fun _ => True :=
  rollReference_succeeds hregistry (childrenAt_succeeds hregistry _) directory context href

end Roller
end RandomTables
