import Mathlib.Algebra.Order.BigOperators.Group.List
import Mathlib.Algebra.Order.Ring.Int
import RandomTables.Proofs.Dice.Accounted
import RandomTables.Proofs.Dice.Notation
import RandomTables.Proofs.Roll.Reproducible

/-!
# The range of a dice expression

The totals of an expression lie in a range that is read off the expression: a constant is a range of
its own, so many dice come to no less than their number and to no more than their number times their
sides, and an operator takes ranges to a range. A product may have its ends at any two of the four
products of ends, since either factor may be below zero.

Every source that keeps to the range of a draw keeps to the range of an expression. That holds of the
mixing source with every seed, and of every replay, whatever it has recorded.
-/
namespace RandomTables

namespace Span

/-- The range of one number. -/
def only (n : Int) : Span := ⟨n, n, Int.le_refl n⟩

/-- The numbers of a range with the sign changed. -/
def neg (a : Span) : Span := ⟨-a.high, -a.low, Int.neg_le_neg a.low_le_high⟩

/-- The sums of numbers of two ranges. -/
def add (a b : Span) : Span :=
  ⟨a.low + b.low, a.high + b.high, Int.add_le_add a.low_le_high b.low_le_high⟩

/-- The differences of numbers of two ranges. -/
def sub (a b : Span) : Span :=
  ⟨a.low - b.high, a.high - b.low, Int.sub_le_sub a.low_le_high b.low_le_high⟩

/-- From the least to the greatest product of ends of two ranges. -/
def mul (a b : Span) : Span where
  low := min (min (a.low * b.low) (a.low * b.high)) (min (a.high * b.low) (a.high * b.high))
  high := max (max (a.low * b.low) (a.low * b.high)) (max (a.high * b.low) (a.high * b.high))
  low_le_high :=
    calc min (min (a.low * b.low) (a.low * b.high)) (min (a.high * b.low) (a.high * b.high))
        ≤ a.low * b.low := (min_le_left _ _).trans (min_le_left _ _)
      _ ≤ max (max (a.low * b.low) (a.low * b.high)) (max (a.high * b.low) (a.high * b.high)) :=
        (le_max_left _ _).trans (le_max_left _ _)

variable {a b : Span} {x y : Int}

theorem only_holds (n : Int) : (only n).holds n := holds_iff.2 ⟨Int.le_refl n, Int.le_refl n⟩

theorem neg_holds (h : a.holds x) : a.neg.holds (-x) := by
  obtain ⟨hlow, hhigh⟩ := holds_iff.1 h
  exact holds_iff.2 ⟨Int.neg_le_neg hhigh, Int.neg_le_neg hlow⟩

theorem add_holds (hx : a.holds x) (hy : b.holds y) : (a.add b).holds (x + y) := by
  obtain ⟨hxlow, hxhigh⟩ := holds_iff.1 hx
  obtain ⟨hylow, hyhigh⟩ := holds_iff.1 hy
  exact holds_iff.2 ⟨Int.add_le_add hxlow hylow, Int.add_le_add hxhigh hyhigh⟩

theorem sub_holds (hx : a.holds x) (hy : b.holds y) : (a.sub b).holds (x - y) := by
  obtain ⟨hxlow, hxhigh⟩ := holds_iff.1 hx
  obtain ⟨hylow, hyhigh⟩ := holds_iff.1 hy
  exact holds_iff.2 ⟨Int.sub_le_sub hxlow hyhigh, Int.sub_le_sub hxhigh hylow⟩

/-- With one factor fixed, a product lies between the products of the ends, in one order or the
other. -/
theorem mul_between (hx : a.holds x) (y : Int) :
    min (a.low * y) (a.high * y) ≤ x * y ∧ x * y ≤ max (a.low * y) (a.high * y) := by
  obtain ⟨hlow, hhigh⟩ := holds_iff.1 hx
  rcases le_total 0 y with hy | hy
  · exact ⟨(min_le_left _ _).trans (mul_le_mul_of_nonneg_right hlow hy),
      (mul_le_mul_of_nonneg_right hhigh hy).trans (le_max_right _ _)⟩
  · exact ⟨(min_le_right _ _).trans (mul_le_mul_of_nonpos_right hhigh hy),
      (mul_le_mul_of_nonpos_right hlow hy).trans (le_max_left _ _)⟩

theorem mul_holds (hx : a.holds x) (hy : b.holds y) : (a.mul b).holds (x * y) := by
  obtain ⟨hlow, hhigh⟩ := mul_between hx y
  -- Each end of the first range is fixed in turn, and the second factor moves.
  have hfirst := mul_between hy a.low
  have hsecond := mul_between hy a.high
  rw [Int.mul_comm b.low, Int.mul_comm b.high, Int.mul_comm y] at hfirst hsecond
  refine holds_iff.2 ⟨?_, ?_⟩
  · exact (min_le_min hfirst.1 hsecond.1).trans hlow
  · exact hhigh.trans (max_le_max hfirst.2 hsecond.2)

end Span

namespace Dice

/-- The range that an operator takes two ranges to. -/
def Operator.span : Operator → Span → Span → Span
  | add => Span.add
  | sub => Span.sub
  | mul => Span.mul

theorem Operator.span_holds (op : Operator) {a b : Span} {x y : Int} (hx : a.holds x)
    (hy : b.holds y) : (op.span a b).holds (op.apply x y) := by
  cases op with
  | add => exact Span.add_holds hx hy
  | sub => exact Span.sub_holds hx hy
  | mul => exact Span.mul_holds hx hy

/-- From as many as there are dice to as many as they have sides. -/
def Handful.span (count sides : Int) (h : 0 < sides) : Span :=
  ⟨max count 0, max count 0 * sides, le_mul_of_one_le_right (le_max_right count 0) h⟩

namespace Handful

/-- Every die of the group is one of the sides. -/
def Shows (h : Handful) (g : DiceGroup) : Prop := ∀ die ∈ g.rolls, 1 ≤ die ∧ die ≤ h.sides

/-- The sum can come from the dice of the handful. -/
def Reaches (h : Handful) (sum : Int) : Prop :=
  max h.count 0 ≤ sum ∧ sum ≤ max h.count 0 * h.sides

theorem Makes.reaches {reason : Text} {h : Handful} {g : DiceGroup} (hmakes : h.Makes reason g)
    (hshows : h.Shows g) : h.Reaches g.rolls.sum := by
  have hlow := List.card_nsmul_le_sum g.rolls 1 fun die hdie => (hshows die hdie).1
  have hhigh := List.sum_le_card_nsmul g.rolls h.sides fun die hdie => (hshows die hdie).2
  rw [nsmul_eq_mul, hmakes.length] at hlow hhigh
  rw [Int.mul_one] at hlow
  exact ⟨hlow, hhigh⟩

end Handful

namespace Expr

/-- The range of an expression whose dice have sides. -/
def range : (e : Expr) → e.HasSides → Span
  | constant value, _ => .only value
  | dice count sides negative, h =>
    if negative then (Handful.span count sides h).neg else Handful.span count sides h
  | join op left right, h => op.span (left.range h.1) (right.range h.2)

/-- Where the handfuls come to sums of their dice, the value of the expression is in its range. -/
theorem range_holds_valueWith {e : Expr} (h : e.HasSides) {sums : List Int}
    (hsums : List.Forall₂ Handful.Reaches e.handfuls sums) :
    (e.range h).holds (e.valueWith sums) := by
  induction e generalizing sums with
  | constant value => exact Span.only_holds value
  | dice count sides negative =>
    obtain ⟨sum, rest, hreaches, hrest, rfl⟩ := List.forall₂_cons_left_iff.1 hsums
    have hsum : (Handful.span count sides h).holds sum := Span.holds_iff.2 hreaches
    cases negative with
    | true => exact Span.neg_holds hsum
    | false => exact hsum
  | join op left right hleft hright =>
    have hfirst := List.forall₂_take left.handfuls.length hsums
    have hsecond := List.forall₂_drop left.handfuls.length hsums
    rw [handfuls, List.take_left] at hfirst
    rw [handfuls, List.drop_left] at hsecond
    rw [valueWith_join]
    exact op.span_holds (hleft h.1 hfirst) (hright h.2 hsecond)

/-- Every die that is rolled for an expression is one of the sides. -/
theorem shows_of_evaluate {source : Source} (hsource : source.Bounded) {reason : Text} {e : Expr}
    {total : Int} {groups : List DiceGroup} {s s' : RollState}
    (h : (e.evaluate source reason).runFrom s = (.ok (total, groups), s')) :
    List.Forall₂ Handful.Shows e.handfuls groups := by
  induction e generalizing total groups s s' with
  | constant value =>
    obtain ⟨heq, _⟩ := Roll.runFrom_pure_eq_ok_iff.1 h
    obtain ⟨_, rfl⟩ := Prod.mk.inj heq
    exact .nil
  | dice count sides negative =>
    obtain ⟨g, t, hgroup, h⟩ := Roll.runFrom_bind_eq_ok_iff.1 h
    obtain ⟨heq, _⟩ := Roll.runFrom_pure_eq_ok_iff.1 h
    obtain ⟨_, rfl⟩ := Prod.mk.inj heq
    obtain ⟨_, values, u, hvalues, rfl, _⟩ := Roll.group_eq_ok_iff.1 hgroup
    exact .cons (Roll.drawDice_values hsource hvalues).2 .nil
  | join op left right hleft hright =>
    obtain ⟨⟨a, first⟩, t, h₁, h⟩ := Roll.runFrom_bind_eq_ok_iff.1 h
    obtain ⟨⟨b, second⟩, u, h₂, h⟩ := Roll.runFrom_bind_eq_ok_iff.1 h
    obtain ⟨heq, _⟩ := Roll.runFrom_pure_eq_ok_iff.1 h
    obtain ⟨_, rfl⟩ := Prod.mk.inj heq
    exact List.rel_append (hleft h₁) (hright h₂)

/-- Whatever an expression comes to lies in its range. -/
theorem range_holds_of_evaluate {source : Source} (hsource : source.Bounded) {reason : Text}
    {e : Expr} (he : e.HasSides) {total : Int} {groups : List DiceGroup} {s s' : RollState}
    (h : (e.evaluate source reason).runFrom s = (.ok (total, groups), s')) :
    (e.range he).holds total := by
  have hshows := shows_of_evaluate hsource h
  obtain ⟨haccounts, rfl⟩ := accounts_of_evaluate h
  have hreaches : List.Forall₂ Handful.Reaches e.handfuls (groups.map fun g => g.rolls.sum) := by
    rw [List.forall₂_map_right_iff]
    exact .mp (fun _ _ hmakes hshows => hmakes.reaches hshows) haccounts.makes hshows
  exact range_holds_valueWith he hreaches

/-- An expression that was read can be rolled with every seed, by the mixing source and by a replay
of any record. Its total lies in its range, and every die lies between one and the number of its
sides. -/
theorem evaluate_in_range {text : Text} {offset : Int} {e : Expr}
    (h : Expr.read text offset = .ok e) {source : Source}
    (hsource : source = SplitMix.source ∨ ∃ replay : Replay, source = replay.source)
    (reason : Text) (s : RollState) :
    ∃ total groups s', (e.evaluate source reason).runFrom s = (.ok (total, groups), s') ∧
      (e.range (read_hasSides h)).holds total ∧
      List.Forall₂ Handful.Shows e.handfuls groups := by
  have hbounded : source.Bounded := by
    rcases hsource with rfl | ⟨replay, rfl⟩
    · exact SplitMix.source_bounded
    · exact replay.source_bounded
  obtain ⟨⟨total, groups⟩, s', hrun, -⟩ := e.evaluate_succeeds source reason (read_hasSides h) s
  exact ⟨total, groups, s', hrun, range_holds_of_evaluate hbounded (read_hasSides h) hrun,
    shows_of_evaluate hbounded hrun⟩

/-- Both factors of the product count dice, one of them negatively. The record that is replayed has
three values that are no sides, and is at its end after the fourth die. -/
theorem damage_in_range :
    Expr.read "2d6-(-1d4*3d8)" 0 = .ok damage ∧
      (∃ total groups s', (damage.evaluate SplitMix.source "damage").runFrom
          (.start default (-7) (.empty default)) = (.ok (total, groups), s') ∧
        5 ≤ total ∧ total ≤ 108 ∧ List.Forall₂ Handful.Shows damage.handfuls groups) ∧
      ∃ total groups s', (damage.evaluate (Replay.start 0 #[9, -3, 2, 100]).source "damage").runFrom
          (.start default 0 (.empty default)) = (.ok (total, groups), s') ∧
        5 ≤ total ∧ total ≤ 108 ∧ List.Forall₂ Handful.Shows damage.handfuls groups := by
  have htext : damage.text = "2d6-(-1d4*3d8)" := by decide +kernel
  have hread : Expr.read "2d6-(-1d4*3d8)" 0 = .ok damage := by
    rw [← htext]
    exact read_text_of_regular (by decide) 0
  have hrange : damage.range (read_hasSides hread) = ⟨5, 108, by decide⟩ := rfl
  obtain ⟨total, groups, s', hrun, htotal, hshows⟩ :=
    evaluate_in_range hread (.inl rfl) "damage" (.start default (-7) (.empty default))
  obtain ⟨total', groups', s'', hrun', htotal', hshows'⟩ :=
    evaluate_in_range hread (.inr ⟨.start 0 #[9, -3, 2, 100], rfl⟩) "damage"
      (.start default 0 (.empty default))
  rw [hrange, Span.holds_iff] at htotal htotal'
  exact ⟨hread, ⟨total, groups, s', hrun, htotal.1, htotal.2, hshows⟩,
    total', groups', s'', hrun', htotal'.1, htotal'.2, hshows'⟩

end Expr
end Dice
end RandomTables
