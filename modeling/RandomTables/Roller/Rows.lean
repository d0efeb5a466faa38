import RandomTables.Outcome.Text
import RandomTables.Template.Resolution

/-!
# Rolling the rows of a table

The rows of a table are rolled one after another. A total that is to be ignored is rolled again and
does not use up a row; when too many totals in a row are ignored, the table makes do with the rows
it has. Where totals are to be unique, every total that is taken is ignored from then on.

How references in a row are rolled is left open, so that what is said here holds whatever becomes
of them.
-/
namespace RandomTables

/-- A way to roll the references of a definition: given the path of the definition, the context in
which it is rolled, what the row stored, and the references in order. -/
abbrev ChildRoller := Text → Context → Bindings Int → List Reference → Roll (List Node)

namespace Instructions

/-- How often to roll. -/
def count (i : Instructions) (context : Context) : Nat :=
  match i.repeats with
  | none => 1
  | some repeats => (repeats.evaluate context).toNat

/-- The totals to ignore. -/
def ignored (i : Instructions) (context : Context) : List Int :=
  i.ignore.map fun quantity => quantity.evaluate context

end Instructions

/-- What the rows of one roll of a table have in common. -/
structure Batch where
  table : Table
  context : Context
  instructions : Instructions
  inputs : Bindings (List Text)

namespace Batch

/-- The total of a row: the one the instructions ask for, or else rolled with the dice of the
instructions or the table, and then modified. -/
def rollTotal (source : Source) (b : Batch) : Roll Int :=
  match b.instructions.total with
  | some total => return total.evaluate b.context
  | none => do
    let dice := b.instructions.dice.getD b.table.dice
    let (total, _) ← dice.evaluate source ("table " ++ b.table.path)
    return total + ((b.instructions.modifier.map fun m => m.evaluate b.context).getD 0)

/-- A total that is not ignored; nothing if as many as `tries` totals in a row are ignored. -/
def rollFresh (source : Source) (b : Batch) (ignored : List Int) : Nat → Roll (Option Int)
  | 0 => return none
  | tries + 1 => do
    let total ← b.rollTotal source
    if total ∈ ignored then b.rollFresh source ignored tries else return some total

/-- How many totals in a row may be ignored before a table makes do. -/
def maxTries : Nat := 101

/-- Roll the row that a total selects, and its references. -/
def rollRow (source : Source) (children : ChildRoller) (b : Batch) (total : Int) : Roll RowRoll :=
  match b.table.findRow? total with
  | none => return .missing total
  | some row => do
    let found ←
      Template.resolve source ⟨b.context, b.inputs⟩ b.instructions.store row.template
    let nested ← children b.table.path b.context found.stored found.refs
    return .found ⟨total, row.range, found.text, nested, found.values, found.stored⟩

/-- The event of a row that was looked up. -/
def lookupOf (b : Batch) (row : RowRoll) : EventBody :=
  .lookup b.table.path b.table.title row.total row.text b.context.depth

/-- Roll one more row and log it; nothing if too many totals in a row are ignored. -/
def rollNext (source : Source) (children : ChildRoller) (b : Batch) (ignored : List Int) :
    Roll (Option RowRoll) := do
  match ← b.rollFresh source ignored maxTries with
  | none => return none
  | some total =>
    let row ← b.rollRow source children total
    Roll.logEvent (b.lookupOf row)
    return some row

def ignoredAfter (b : Batch) (ignored : List Int) (row : RowRoll) : List Int :=
  if b.instructions.unique then row.total :: ignored else ignored

/-- Roll up to as many rows as are asked for. -/
def rollRows (source : Source) (children : ChildRoller) (b : Batch) (ignored : List Int) :
    Nat → Roll (List RowRoll)
  | 0 => return []
  | count + 1 => do
    match ← b.rollNext source children ignored with
    | none => return []
    | some row =>
      let rows ← b.rollRows source children (b.ignoredAfter ignored row) count
      return row :: rows

end Batch
end RandomTables
