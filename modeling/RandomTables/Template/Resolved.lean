import RandomTables.Dice.Roll
import RandomTables.Text.Split

/-!
# Resolved text

What the components of a template have come to. A reference is kept as a number that points into
the list of what the references of the same template came to, so that the text can be written once
those are known.
-/
namespace RandomTables

/-- A piece of resolved text. -/
inductive Resolved where
  | plain (text : Text)
  | value (name : Text) (value : Int) (groups : List DiceGroup)
  | input (key text : Text) (color background : Option Text) (found : Bool)
  | percent (label : Text) (chance : Nat) (selected : Bool) (inner : List Resolved)
  | reference (index : Nat) (name : Option Text)
  deriving Repr, Inhabited

namespace Resolved

mutual

/-- The text of a piece, where `nested` holds the texts that references point to. A block that was
not selected has no text, and neither has a reference that points nowhere. -/
def write (nested : List Text) : Resolved → Text
  | plain text => text
  | value _ n _ => Text.integer n
  | input _ text _ _ _ => text
  | percent _ _ selected inner => if selected then writeAll nested inner else ""
  | reference index _ => (nested[index]?).getD ""

/-- The text of some pieces, one after another. -/
def writeAll (nested : List Text) : List Resolved → Text
  | [] => ""
  | piece :: rest => piece.write nested ++ writeAll nested rest

end

@[simp] theorem writeAll_nil (nested : List Text) : writeAll nested [] = "" := rfl

@[simp] theorem writeAll_cons (nested : List Text) (piece : Resolved) (rest : List Resolved) :
    writeAll nested (piece :: rest) = piece.write nested ++ writeAll nested rest := rfl

end Resolved
end RandomTables
