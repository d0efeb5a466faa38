import RandomTables.Text.Number

/-!
# Dice expressions

A dice expression is a constant, a group of equal dice, or two expressions joined by an operator.
The three operators have one precedence and associate to the left, so the spelling needs
parentheses around a right operand that is itself joined, and nowhere else.
-/
namespace RandomTables.Dice

inductive Operator where
  | add
  | sub
  | mul
  deriving Repr, DecidableEq, Inhabited

namespace Operator

/-- The value that an operator gives two totals. -/
def apply : Operator → Int → Int → Int
  | add, a, b => a + b
  | sub, a, b => a - b
  | mul, a, b => a * b

def sign : Operator → CodePoint
  | add => '+'
  | sub => '-'
  | mul => '*'

def ofSign? : CodePoint → Option Operator
  | .char '+' => some add
  | .char '-' => some sub
  | .char '*' => some mul
  | _ => none

@[simp] theorem ofSign?_sign (op : Operator) : ofSign? op.sign = some op := by cases op <;> rfl

end Operator

/-- A dice expression. A group of dice may count negatively; it has no dice if there are to be fewer
than none. -/
inductive Expr where
  | constant (value : Int)
  | dice (count sides : Int) (negative : Bool)
  | join (op : Operator) (left right : Expr)
  deriving Repr, DecidableEq, Inhabited

namespace Expr

/-- The expression is two expressions joined by an operator. -/
def isJoin : Expr → Bool
  | join .. => true
  | _ => false

/-- The expression's spelling. -/
def text : Expr → Text
  | constant value => Text.integer value
  | dice count sides negative =>
    (if negative then "-" else "") ++ Text.integer count ++ "d" ++ Text.integer sides
  | join op left right =>
    left.text ++ op.sign :: (if right.isJoin then "(" ++ right.text ++ ")" else right.text)

def isConstant : Expr → Bool
  | constant _ => true
  | _ => false

end Expr
end RandomTables.Dice
