import RandomTables.Text.Basic

/-!
# Margins

A margin is a run of blanks, made of steps of one width. A number of steps that does not go into a
machine word makes none, and neither does one that asks for more blanks than a text can hold or than
there is room for.
-/
namespace RandomTables

/-- Why a margin is not made: no text is that long, or there is no room for it. -/
inductive MarginFault where
  | tooLong
  | noRoom
  deriving Repr, DecidableEq, Inhabited

namespace Text

/-- The length that no text exceeds. -/
def maxLength : Nat := Nat.pow 2 63 - 1

/-- The length of a text that there is room for. -/
def maxRoom : Nat := Nat.pow 2 40

/-- A margin of some steps of a width; a number of steps below zero makes an empty one. -/
def margin (width : Nat) (steps : Int) : Except MarginFault Text :=
  let blanks := width * steps.toNat
  if steps < -maxLength - 1 || blanks > maxLength then .error .tooLong
  else if blanks > maxRoom then .error .noRoom
  else .ok (copies blanks ' ')

end Text
end RandomTables
