import RandomTables.Proofs.Roll.Success
import RandomTables.Template.Resolution

/-!
# Templates that can be resolved

Resolving a template rolls the dice of the values that are computed in it, and a die of a hundred
for its blocks. References are collected and not rolled. So a template can be resolved, from every
state and with every source, if the dice of its computed values have sides.
-/
namespace RandomTables

namespace Component

mutual

/-- The dice of the values that are computed in the component have sides. -/
def Resolvable : Component → Prop
  | .computed _ e => e.HasSides
  | .percent _ _ inner => AllResolvable inner
  | _ => True

/-- The same of all components of a template. -/
def AllResolvable : List Component → Prop
  | [] => True
  | c :: rest => c.Resolvable ∧ AllResolvable rest

end

@[simp] theorem resolvable_computed_iff {name : Text} {e : Dice.Expr} :
    (computed name e).Resolvable ↔ e.HasSides := by
  rw [Resolvable]

@[simp] theorem resolvable_percent_iff {chance : Nat} {label : Text} {inner : List Component} :
    (percent chance label inner).Resolvable ↔ AllResolvable inner := by
  rw [Resolvable]

@[simp] theorem allResolvable_cons_iff {c : Component} {rest : List Component} :
    AllResolvable (c :: rest) ↔ c.Resolvable ∧ AllResolvable rest := by
  rw [AllResolvable]

end Component

namespace Template
open Component (AllResolvable)
open Roll (Succeeds)
variable (source : Source)

theorem Chances.next_succeeds (c : Chances) (chance : Nat) :
    Succeeds (c.next source chance) fun _ => True := by
  have hdraw : Succeeds (c.draw source) fun _ => True := by
    unfold draw
    cases c.drawn with
    | some drawn => exact .pure trivial
    | none =>
      exact (Roll.group_succeeds source 1 (by omega) _).bind fun rolled _ => .pure trivial
  refine hdraw.bind fun drawn _ => ?_
  cases c.decided with
  | true => exact .pure trivial
  | false => exact .pure trivial

mutual

theorem resolveOne_succeeds (s : Surroundings) (chances : Chances) (pass : Pass) :
    (c : Component) → c.Resolvable → Succeeds (resolveOne source s chances pass c) fun _ => True
  | .plain text, _ => by
    simp only [resolveOne]
    exact .pure trivial
  | .input placeholder, _ => by
    simp only [resolveOne]
    exact .pure trivial
  | .computed name expr, h => by
    simp only [resolveOne]
    have hexpr := Component.resolvable_computed_iff.1 h
    exact (Dice.Expr.evaluate_succeeds source _ hexpr).bind fun found _ => .pure trivial
  | .percent chance label inner, h => by
    simp only [resolveOne]
    have hinner := Component.resolvable_percent_iff.1 h
    refine (Chances.next_succeeds source chances chance).bind fun ⟨selected, chances⟩ _ => ?_
    cases selected with
    | true =>
      exact (resolveAll_succeeds s .start pass inner hinner).bind fun found _ => .pure trivial
    | false => exact .pure trivial
  | .reference ref name, _ => by
    simp only [resolveOne]
    exact .pure trivial

theorem resolveAll_succeeds (s : Surroundings) (chances : Chances) (pass : Pass) :
    (cs : List Component) → AllResolvable cs →
      Succeeds (resolveAll source s chances pass cs) fun _ => True
  | [], _ => by
    simp only [resolveAll]
    exact .pure trivial
  | component :: rest, h => by
    simp only [resolveAll]
    obtain ⟨hfirst, hrest⟩ := Component.allResolvable_cons_iff.1 h
    refine (resolveOne_succeeds s chances pass component hfirst).bind
      fun ⟨piece, chances, pass⟩ _ => ?_
    exact (resolveAll_succeeds s chances pass rest hrest).bind fun more _ => .pure trivial

end

/-- A template can be resolved if the dice of its computed values have sides. -/
theorem resolve_succeeds_of_resolvable (s : Surroundings) (store : Bindings Text)
    {template : List Component} (h : AllResolvable template) :
    Succeeds (resolve source s store template) fun _ => True :=
  (resolveAll_succeeds source s .start .start template h).bind fun _ _ => .pure trivial

end Template
end RandomTables
