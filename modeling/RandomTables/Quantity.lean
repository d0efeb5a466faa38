import RandomTables.Context
import RandomTables.Document.Basic
import RandomTables.Text.Blank
import RandomTables.Text.Digit

/-!
# Quantities

A number in an instruction is written out, or is the name of a variable that is looked up when the
instruction is carried out. A variable that is not bound counts as zero.
-/
namespace RandomTables

/-- A number that is fixed or read from the context. -/
inductive Quantity where
  | fixed (value : Int)
  | bound (key : Text)
  deriving Repr, DecidableEq, Inhabited

/-- Why a value is no quantity. -/
inductive QuantityFault where
  | truthValue (value : Bool)
  | empty
  deriving Repr, DecidableEq, Inhabited

def QuantityFault.message : QuantityFault → Text
  | truthValue value =>
    "Expected a number or variable name, got " ++ (Scalar.bool value).literal
  | empty => "Empty variable"

namespace Quantity

/-- The number in a context. -/
def evaluate (c : Context) : Quantity → Int
  | fixed value => value
  | bound key => c.value key 0

/-- The number that a sign and decimal digits denote. -/
def signed? : Text → Option Int
  | .char '-' :: digits => (Text.numeral? digits).map fun n => -(n : Int)
  | .char '+' :: digits => (Text.numeral? digits).map Int.ofNat
  | digits => (Text.numeral? digits).map Int.ofNat

/-- The quantity that a trimmed text stands for. -/
def ofText (s : Text) : Except QuantityFault Quantity :=
  match signed? s with
  | some n => .ok (fixed n)
  | none => if s.isEmpty then .error .empty else .ok (bound s)

def ofDocument : Document → Except QuantityFault Quantity
  | .scalar s => match s with
    | .bool value => .error (.truthValue value)
    | .int value => .ok (fixed value)
    | s => ofText (Text.trim s.display)
  | d => ofText (Text.trim d.display)

end Quantity
end RandomTables
