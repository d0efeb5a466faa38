import RandomTables.Proofs.RunLog.Growth
import RandomTables.Roller.Rows

/-!
# Computations that draw in groups

A computation rolls dice in groups, and logs every group that it rolls. Some computations do nothing
else: expressions, templates and the totals of a table only roll dice. Whatever is rolled besides
logs events as well, none of which hold dice. What is kept by putting such computations together
holds of all of them, so it has to be shown for a group and for an event only.

The source is left open, since some of what is said about a computation compares how it draws from
two of them.
-/
namespace RandomTables

namespace Roll

/-- The computation is put together of groups of dice. -/
inductive OnlyDice : {α : Type} → (Source → Roll α) → Prop where
  | pure {α : Type} (a : α) : OnlyDice fun _ => (Pure.pure a : Roll α)
  | group (count sides : Int) (reason : Text) :
    OnlyDice fun source => Roll.group source count sides reason
  | bind {α β : Type} {m : Source → Roll α} {f : Source → α → Roll β} (first : OnlyDice m)
    (others : ∀ a, OnlyDice fun source => f source a) :
    OnlyDice fun source => m source >>= f source

/-- The computation is put together of groups of dice and of events without dice. -/
inductive InGroups : {α : Type} → (Source → Roll α) → Prop where
  | pure {α : Type} (a : α) : InGroups fun _ => (Pure.pure a : Roll α)
  | group (count sides : Int) (reason : Text) :
    InGroups fun source => Roll.group source count sides reason
  | logEvent (body : EventBody) (hbody : body.rolls = []) :
    InGroups fun _ => Roll.logEvent body
  | bind {α β : Type} {m : Source → Roll α} {f : Source → α → Roll β} (first : InGroups m)
    (others : ∀ a, InGroups fun source => f source a) :
    InGroups fun source => m source >>= f source

theorem InGroups.map {α β : Type} {m : Source → Roll α} (f : α → β) (h : InGroups m) :
    InGroups fun source => f <$> m source := by
  have hbind := h.bind fun a => .pure (f a)
  simpa only [bind_pure_comp] using hbind

theorem OnlyDice.inGroups {α : Type} {m : Source → Roll α} (h : OnlyDice m) : InGroups m := by
  induction h with
  | pure a => exact .pure a
  | group count sides reason => exact .group count sides reason
  | bind _ _ first others => exact first.bind others

end Roll

namespace Dice

/-- The groups of an expression are rolled one after another. -/
theorem Expr.evaluate_onlyDice (reason : Text) (e : Expr) :
    Roll.OnlyDice fun source => e.evaluate source reason := by
  induction e with
  | constant value => exact .pure _
  | dice count sides negative => exact .bind (.group count sides reason) fun rolled => .pure _
  | join op left right hleft hright =>
    exact .bind hleft fun first => .bind hright fun second => .pure _

end Dice

open Roll (OnlyDice)

namespace Template

theorem Chances.next_onlyDice (c : Chances) (chance : Nat) :
    OnlyDice fun source => c.next source chance := by
  have hdraw : OnlyDice fun source => c.draw source := by
    unfold draw
    cases c.drawn with
    | some drawn => exact .pure drawn
    | none => exact .bind (.group 1 100 _) fun rolled => .pure rolled.total
  refine .bind hdraw fun drawn => ?_
  cases c.decided with
  | true => exact .pure _
  | false => exact .pure _

mutual

theorem resolveOne_onlyDice (s : Surroundings) (chances : Chances) (pass : Pass) :
    (c : Component) → OnlyDice fun source => resolveOne source s chances pass c
  | .plain text => by
    simp only [resolveOne]
    exact .pure _
  | .input placeholder => by
    simp only [resolveOne]
    exact .pure _
  | .computed name expr => by
    simp only [resolveOne]
    exact .bind (expr.evaluate_onlyDice _) fun found => .pure _
  | .percent chance label inner => by
    simp only [resolveOne]
    refine .bind (chances.next_onlyDice chance) fun ⟨selected, chances⟩ => ?_
    cases selected with
    | true => exact .bind (resolveAll_onlyDice s .start pass inner) fun found => .pure _
    | false => exact .pure _
  | .reference ref name => by
    simp only [resolveOne]
    exact .pure _

theorem resolveAll_onlyDice (s : Surroundings) (chances : Chances) (pass : Pass) :
    (cs : List Component) → OnlyDice fun source => resolveAll source s chances pass cs
  | [] => by
    simp only [resolveAll]
    exact .pure _
  | component :: rest => by
    simp only [resolveAll]
    refine .bind (resolveOne_onlyDice s chances pass component) fun ⟨piece, chances, pass⟩ => ?_
    exact .bind (resolveAll_onlyDice s chances pass rest) fun more => .pure _

end

theorem resolve_onlyDice (s : Surroundings) (store : Bindings Text) (template : List Component) :
    OnlyDice fun source => resolve source s store template :=
  .bind (resolveAll_onlyDice s .start .start template) fun _ => .pure _

end Template

theorem Batch.rollFresh_onlyDice (b : Batch) (ignored : List Int) (tries : Nat) :
    OnlyDice fun source => b.rollFresh source ignored tries := by
  have htotal : OnlyDice fun source => b.rollTotal source := by
    unfold rollTotal
    cases b.instructions.total with
    | some total => exact .pure _
    | none => exact .bind (Dice.Expr.evaluate_onlyDice _ _) fun _ => .pure _
  induction tries with
  | zero => exact .pure none
  | succ tries ih =>
    refine .bind htotal fun total => ?_
    by_cases hmem : total ∈ ignored
    · simpa only [if_pos hmem] using ih
    · simpa only [if_neg hmem] using .pure _

end RandomTables
