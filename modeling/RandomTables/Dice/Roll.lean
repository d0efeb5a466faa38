import RandomTables.Dice.Reader
import RandomTables.Draw.Replay
import RandomTables.RunLog.Basic

/-!
# Rolling dice

Rolling threads one state: the seed of the next draw, the draws asked for, the groups of dice
rolled, and the run log. A roll fails only for dice without sides and for an empty range, and keeps
what happened before.
-/
namespace RandomTables

/-- Dice rolled together, with every die kept. -/
structure DiceGroup where
  dice : Text
  rolls : List Int
  total : Int
  reason : Text
  deriving Repr, DecidableEq, Inhabited

def DiceGroup.text (g : DiceGroup) : Text :=
  g.dice ++ ": " ++ Text.integers g.rolls ++ " = " ++ Text.integer g.total

/-- Why a roll fails. -/
inductive RollFault where
  | noSides (sides : Int)
  | emptyRange (low high : Int)
  deriving Repr, DecidableEq, Inhabited

def RollFault.message : RollFault → Text
  | noSides sides => "Die size must be positive, got " ++ Text.integer sides
  | emptyRange low high => "Empty draw range " ++ Text.integers [low, high]

/-- What rolling changes. Events are stamped with `now`. -/
structure RollState where
  now : Timestamp
  seed : Int
  requests : Array Request
  groups : Array DiceGroup
  log : RunLog
  deriving Inhabited

/-- The state before the first roll of a call. -/
def RollState.start (now : Timestamp) (seed : Int) (log : RunLog) : RollState :=
  ⟨now, seed, #[], #[], log⟩

/-- A computation that rolls dice. -/
abbrev Roll (α : Type) : Type := ExceptT RollFault (StateM RollState) α

namespace Roll

/-- Run a computation from a state; the state it ends in is given for a failure as well. -/
def runFrom {α : Type} (roll : Roll α) (s : RollState) : Except RollFault α × RollState :=
  (ExceptT.run roll).run s

def logEvent (body : EventBody) : Roll Unit :=
  modify fun s => { s with log := s.log.add s.now body }

/-- Draw a number between two bounds and move on to the next seed. -/
def draw (source : Source) (low high : Int) : Roll Int := do
  let s ← get
  set { s with requests := s.requests.push ⟨s.seed, low, high⟩ }
  if h : low ≤ high then
    let drawn := source.draw s.seed ⟨low, high, h⟩
    modify fun s => { s with seed := drawn.2 }
    return drawn.1
  else throw (.emptyRange low high)

/-- Draw `n` numbers between one and `sides`, in order. -/
def drawDice (source : Source) (sides : Int) : Nat → Roll (List Int)
  | 0 => return []
  | n + 1 => do
    let value ← draw source 1 sides
    let values ← drawDice source sides n
    return value :: values

/-- Roll a group of dice and log it. No dice are rolled for a negative count. -/
def group (source : Source) (count sides : Int) (reason : Text) : Roll DiceGroup := do
  if sides ≤ 0 then throw (.noSides sides)
  let rolls ← drawDice source sides count.toNat
  let dice := Text.integer count ++ "d" ++ Text.integer sides
  let rolled : DiceGroup := ⟨dice, rolls, rolls.foldr (· + ·) 0, reason⟩
  modify fun s => { s with groups := s.groups.push rolled }
  logEvent (.roll rolled.dice rolled.rolls rolled.total rolled.reason)
  return rolled

/-- Roll one die of a hundred sides. -/
def percentile (source : Source) (reason : Text) : Roll DiceGroup := group source 1 100 reason

end Roll

namespace Dice

/-- The total of an expression and the groups rolled for it, from left to right. -/
def Expr.evaluate (source : Source) (reason : Text) : Expr → Roll (Int × List DiceGroup)
  | .constant value => return (value, [])
  | .dice count sides negative => do
    let rolled ← Roll.group source count sides reason
    return (if negative then -rolled.total else rolled.total, [rolled])
  | .join op left right => do
    let (a, first) ← left.evaluate source reason
    let (b, second) ← right.evaluate source reason
    return (op.apply a b, first ++ second)

/-- Read an expression and roll it. Without a reason the text itself is the reason. -/
def rollText (source : Source) (text reason : Text) :
    Except ReadError (Roll (Int × List DiceGroup)) :=
  (Expr.read text 0).map fun e =>
    e.evaluate source (if reason.isEmpty then text else reason)

end Dice
end RandomTables
