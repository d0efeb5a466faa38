import Mathlib.Data.List.Forall2
import RandomTables.Proofs.Roll.Drawn
import RandomTables.Proofs.Roll.Success

/-!
# Every die of an expression is accounted for

The dice of an expression are handfuls of equal dice, read from left to right. Rolling the
expression leaves four records: the groups in the result, the groups kept beside the seed, the
events of the log, and the draws that the source was asked for. All four hold the same dice in the
same order, one group for each handful, and nothing else; and the total is the value of the
expression where each handful counts as the sum of its group.
-/
namespace RandomTables

namespace Dice

/-- Equal dice that are rolled together: how many, and with how many sides. -/
structure Handful where
  count : Int
  sides : Int
  deriving Repr, DecidableEq

namespace Handful

/-- The bounds of the draws that the dice are made with. -/
def bounds (h : Handful) : List (Int × Int) := List.replicate h.count.toNat (1, h.sides)

/-- The group holds the dice of the handful, none if their count is below zero, and their sum. -/
structure Makes (reason : Text) (h : Handful) (g : DiceGroup) : Prop where
  dice : g.dice = Text.integer h.count ++ "d" ++ Text.integer h.sides
  length : (g.rolls.length : Int) = max h.count 0
  total : g.total = g.rolls.sum
  reason : g.reason = reason

end Handful

namespace Expr

/-- The handfuls of dice in an expression, from left to right. -/
def handfuls : Expr → List Handful
  | constant _ => []
  | dice count sides _ => [⟨count, sides⟩]
  | join _ left right => left.handfuls ++ right.handfuls

/-- The value of an expression whose handfuls come to these sums, from left to right. -/
def valueWith : Expr → List Int → Int
  | constant value, _ => value
  | dice _ _ negative, sums => if negative then -sums.headD 0 else sums.headD 0
  | join op left right, sums =>
    let first := left.valueWith (sums.take left.handfuls.length)
    let second := right.valueWith (sums.drop left.handfuls.length)
    match op with
    | .add => first + second
    | .sub => first - second
    | .mul => first * second

theorem valueWith_join (op : Operator) (left right : Expr) (sums : List Int) :
    (join op left right).valueWith sums =
      op.apply (left.valueWith (sums.take left.handfuls.length))
        (right.valueWith (sums.drop left.handfuls.length)) := by
  cases op <;> rfl

theorem valueWith_join_append {op : Operator} {left right : Expr} {sums more : List Int}
    (h : sums.length = left.handfuls.length) :
    (join op left right).valueWith (sums ++ more) =
      op.apply (left.valueWith sums) (right.valueWith more) := by
  rw [valueWith_join, ← h, List.take_left, List.drop_left]

end Expr
end Dice

open Dice (Handful)

namespace RollState

/-- From `s` on, up to `s'`, these handfuls are rolled one after another for this reason, and come
to these groups. The groups are all that is kept and logged, and their dice are all that is
drawn. -/
structure Accounts (source : Source) (reason : Text) (s : RollState) (handfuls : List Handful)
    (groups : List DiceGroup) (s' : RollState) : Prop where
  makes : List.Forall₂ (Handful.Makes reason) handfuls groups
  kept : s'.groups.toList = s.groups.toList ++ groups
  logs : s.Logs (groups.map DiceGroup.event) s'
  draws : ∃ asked, s.Draws source asked (groups.flatMap DiceGroup.rolls) s' ∧
    asked.map Request.bounds = handfuls.flatMap Handful.bounds

namespace Accounts
variable {source : Source} {reason : Text} {s t u : RollState} {handfuls more : List Handful}
  {groups others : List DiceGroup}

theorem refl (source : Source) (reason : Text) (s : RollState) :
    s.Accounts source reason [] [] s :=
  ⟨.nil, (List.append_nil _).symm, .refl s, [], .refl source s, rfl⟩

theorem trans (h : s.Accounts source reason handfuls groups t)
    (h' : t.Accounts source reason more others u) :
    s.Accounts source reason (handfuls ++ more) (groups ++ others) u := by
  obtain ⟨asked, hdraws, hbounds⟩ := h.draws
  obtain ⟨asked', hdraws', hbounds'⟩ := h'.draws
  refine ⟨List.rel_append h.makes h'.makes, ?_, ?_, asked ++ asked', ?_, ?_⟩
  · rw [h'.kept, h.kept, List.append_assoc]
  · rw [List.map_append]
    exact h.logs.trans h'.logs
  · rw [List.flatMap_append]
    exact hdraws.trans hdraws'
  · rw [List.map_append, hbounds, hbounds', List.flatMap_append]

/-- Each group has as many dice as its handful, and none if their count is below zero. -/
theorem map_length (h : s.Accounts source reason handfuls groups t) :
    groups.map (fun g => (g.rolls.length : Int)) = handfuls.map fun h => max h.count 0 := by
  rw [eq_comm, ← List.forall₂_eq_eq_eq, List.forall₂_map_left_iff, List.forall₂_map_right_iff]
  exact h.makes.imp fun _ _ hmakes => hmakes.length.symm

end Accounts
end RollState

namespace Roll
variable {source : Source} {count sides : Int} {reason : Text} {s s' : RollState}

theorem draw_groups {low high value : Int}
    (h : (draw source low high).runFrom s = (.ok value, s')) : s'.groups = s.groups := by
  have hle := le_of_runFrom_draw h
  rw [runFrom_draw hle] at h
  obtain ⟨_, rfl⟩ : _ = value ∧ _ = s' := by simpa using h
  rfl

/-- Drawing dice keeps no group. -/
theorem drawDice_groups {n : Nat} {values : List Int}
    (h : (drawDice source sides n).runFrom s = (.ok values, s')) : s'.groups = s.groups := by
  induction n generalizing s values with
  | zero =>
    obtain ⟨_, rfl⟩ := runFrom_pure_eq_ok_iff.1 h
    rfl
  | succ n ih =>
    obtain ⟨value, mid, hdraw, h⟩ := runFrom_bind_eq_ok_iff.1 h
    obtain ⟨rest, last, hrest, h⟩ := runFrom_bind_eq_ok_iff.1 h
    obtain ⟨_, rfl⟩ := runFrom_pure_eq_ok_iff.1 h
    rw [ih hrest, draw_groups hdraw]

/-- A group accounts for its handful, whatever the count is. -/
theorem group_accounts {g : DiceGroup}
    (h : (group source count sides reason).runFrom s = (.ok g, s')) :
    s.Accounts source reason [⟨count, sides⟩] [g] s' := by
  obtain ⟨_, values, t, hvalues, rfl, rfl⟩ := group_eq_ok_iff.1 h
  obtain ⟨asked, hdraws, hbounds⟩ := drawDice_draws hvalues
  have hlength : values.length = count.toNat := by
    rw [← hdraws.draws.length_eq, ← List.length_map, hbounds, List.length_replicate]
  have hmakes : Handful.Makes reason ⟨count, sides⟩ (.ofRolls count sides values reason) := by
    refine ⟨rfl, ?_, rfl, rfl⟩
    change (values.length : Int) = max count 0
    omega
  refine ⟨.cons hmakes .nil, ?_, (drawDice_logs hvalues).keep _, asked, ?_, ?_⟩
  · rw [RollState.keep, Array.toList_push, drawDice_groups hvalues]
  · rw [List.flatMap_singleton]
    exact ⟨hdraws.requests, hdraws.draws⟩
  · rw [List.flatMap_singleton]
    exact hbounds

end Roll

namespace Dice
open Roll

/-- An expression that was rolled accounts for its handfuls, and its total is the value of the
expression with the sums of their groups. -/
theorem Expr.accounts_of_evaluate {source : Source} {reason : Text} {e : Expr} {total : Int}
    {groups : List DiceGroup} {s s' : RollState}
    (h : (e.evaluate source reason).runFrom s = (.ok (total, groups), s')) :
    s.Accounts source reason e.handfuls groups s' ∧
      total = e.valueWith (groups.map fun g => g.rolls.sum) := by
  induction e generalizing total groups s s' with
  | constant value =>
    obtain ⟨heq, rfl⟩ := runFrom_pure_eq_ok_iff.1 h
    obtain ⟨rfl, rfl⟩ := Prod.mk.inj heq
    exact ⟨.refl source reason s, rfl⟩
  | dice count sides negative =>
    obtain ⟨g, t, hgroup, h⟩ := runFrom_bind_eq_ok_iff.1 h
    obtain ⟨heq, rfl⟩ := runFrom_pure_eq_ok_iff.1 h
    obtain ⟨rfl, rfl⟩ := Prod.mk.inj heq
    have haccounts := group_accounts hgroup
    cases haccounts.makes with
    | cons hmakes _ =>
      refine ⟨haccounts, ?_⟩
      rw [hmakes.total]
      rfl
  | join op left right hleft hright =>
    obtain ⟨⟨a, first⟩, t, h₁, h⟩ := runFrom_bind_eq_ok_iff.1 h
    obtain ⟨⟨b, second⟩, u, h₂, h⟩ := runFrom_bind_eq_ok_iff.1 h
    obtain ⟨heq, rfl⟩ := runFrom_pure_eq_ok_iff.1 h
    obtain ⟨rfl, rfl⟩ := Prod.mk.inj heq
    obtain ⟨haccounts, rfl⟩ := hleft h₁
    obtain ⟨haccounts', rfl⟩ := hright h₂
    refine ⟨haccounts.trans haccounts', ?_⟩
    rw [List.map_append, valueWith_join_append]
    rw [List.length_map, haccounts.makes.length_eq]

/-- From every state an expression whose dice have sides comes to a total and to one group for each
of its handfuls, read from left to right; a handful whose count is below zero has no dice. These
groups are kept and logged, in this order and for this reason; their dice are drawn one after
another, each draw with the seed that the one before it left, and nothing else is kept, logged or
drawn. The total is the value of the expression with each handful replaced by the sum of its
group. -/
theorem evaluate_accounts (source : Source) (reason : Text) (s : RollState) {e : Expr}
    (he : e.HasSides) :
    ∃ total groups s', (e.evaluate source reason).runFrom s = (.ok (total, groups), s') ∧
      s.Accounts source reason e.handfuls groups s' ∧
      total = e.valueWith (groups.map fun g => g.rolls.sum) := by
  obtain ⟨⟨total, groups⟩, s', hrun, -⟩ := e.evaluate_succeeds source reason he s
  exact ⟨total, groups, s', hrun, Expr.accounts_of_evaluate hrun⟩

/-- Two dice less the product of a die that counts negatively and three dice. -/
def Expr.damage : Expr :=
  .join .sub (.dice 2 6 false) (.join .mul (.dice 1 4 true) (.dice 3 8 false))

/-- Six dice are rolled for the damage, and none for two dice fewer than none that are added. -/
theorem damage_accounts :
    (Expr.join .add .damage (.dice (-2) 6 false)).HasSides ∧
      ∃ total groups s', ((Expr.join .add .damage (.dice (-2) 6 false)).evaluate SplitMix.source
          "damage").runFrom (.start default 7 (.empty default)) = (.ok (total, groups), s') ∧
        (RollState.start default 7 (.empty default)).Accounts SplitMix.source "damage"
          [⟨2, 6⟩, ⟨1, 4⟩, ⟨3, 8⟩, ⟨-2, 6⟩] groups s' ∧
        groups.map (fun g => (g.rolls.length : Int)) = [2, 1, 3, 0] ∧
        total = (Expr.join .add .damage (.dice (-2) 6 false)).valueWith
          (groups.map fun g => g.rolls.sum) := by
  have hsides : (Expr.join .add .damage (.dice (-2) 6 false)).HasSides := by decide
  obtain ⟨total, groups, s', hrun, haccounts, htotal⟩ :=
    evaluate_accounts SplitMix.source "damage" (.start default 7 (.empty default)) hsides
  exact ⟨hsides, total, groups, s', hrun, haccounts, haccounts.map_length, htotal⟩

end Dice
end RandomTables
