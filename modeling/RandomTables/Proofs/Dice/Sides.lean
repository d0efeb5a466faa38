import RandomTables.Proofs.Dice.Grammar

/-!
# Dice that have sides

Dice without sides cannot be rolled. The grammar of dice expressions refuses them, wherever they
stand in an expression, so every die of an expression that was read has sides. Nor does an
expression that was read ask for fewer dice than none: a minus in front of dice is their sign.
-/
namespace RandomTables.Dice

/-- Every die of the expression has sides. -/
def Expr.HasSides : Expr → Prop
  | constant _ => True
  | dice _ sides _ => 0 < sides
  | join _ left right => left.HasSides ∧ right.HasSides

/-- Every die of the expression has sides, and it nowhere asks for fewer dice than none. -/
def Expr.Regular : Expr → Prop
  | constant _ => True
  | dice count sides _ => 0 ≤ count ∧ 0 < sides
  | join _ left right => left.Regular ∧ right.Regular

namespace Expr

@[simp] theorem hasSides_constant (value : Int) : (constant value).HasSides := trivial

@[simp] theorem hasSides_dice_iff {count sides : Int} {negative : Bool} :
    (dice count sides negative).HasSides ↔ 0 < sides := Iff.rfl

@[simp] theorem hasSides_join_iff {op : Operator} {left right : Expr} :
    (join op left right).HasSides ↔ left.HasSides ∧ right.HasSides := Iff.rfl

instance decidableHasSides : (e : Expr) → Decidable e.HasSides
  | constant _ => .isTrue trivial
  | dice _ sides _ => inferInstanceAs (Decidable (0 < sides))
  | join _ left right =>
    have := decidableHasSides left
    have := decidableHasSides right
    inferInstanceAs (Decidable (left.HasSides ∧ right.HasSides))

instance decidableRegular : (e : Expr) → Decidable e.Regular
  | constant _ => .isTrue trivial
  | dice count sides _ => inferInstanceAs (Decidable (0 ≤ count ∧ 0 < sides))
  | join _ left right =>
    have := decidableRegular left
    have := decidableRegular right
    inferInstanceAs (Decidable (left.Regular ∧ right.Regular))

theorem Regular.hasSides {e : Expr} (h : e.Regular) : e.HasSides := by
  induction e with
  | constant value => trivial
  | dice count sides negative => exact h.2
  | join op left right ihleft ihright => exact ⟨ihleft h.1, ihright h.2⟩

end Expr

mutual

theorem Term.regular {s rest : Text} {e : Expr} : Term s e rest → e.Regular
  | .parentheses _ hinner _ => hinner.regular
  | .constant _ _ => trivial
  | .dice _ _ _ _ hpos => ⟨Int.natCast_nonneg _, Int.natCast_pos.2 hpos⟩

theorem Joined.regular {s rest : Text} {e : Expr} : Joined s e rest → e.Regular
  | .term h => h.regular
  | .join hleft _ hright => ⟨hleft.regular, hright.regular⟩

end

/-- Every expression that was read is regular. -/
theorem Expr.read_regular {s : Text} {offset : Int} {e : Expr} (h : Expr.read s offset = .ok e) :
    e.Regular := by
  cases spells_of_scan (Expr.read_eq_ok_iff.1 h) with
  | mk _ hjoined _ => exact hjoined.regular

theorem Expr.read_hasSides {s : Text} {offset : Int} {e : Expr} (h : Expr.read s offset = .ok e) :
    e.HasSides := (read_regular h).hasSides

end RandomTables.Dice
