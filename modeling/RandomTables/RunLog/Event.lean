import RandomTables.Document.Basic
import RandomTables.Text.Margin
import RandomTables.Timestamp

/-!
# Events

An event records a group of dice, a row looked up in a table, or a place rolled again, together
with its number in the log, its timestamp and free context. An event of another origin carries its
context only.

A saved event has the same shape, but a file may hold any value in place of a text or number. What
can be said of an event is said of the saved one, and of an event through the form it is saved in.
-/
namespace RandomTables

/-- The kinds of events. -/
inductive EventKind where
  | roll
  | lookup
  | reroll
  | custom
  deriving Repr, DecidableEq, Inhabited

namespace EventKind

def name : EventKind → Text
  | roll => "roll"
  | lookup => "table_lookup"
  | reroll => "reroll"
  | custom => "custom"

def ofName? (name : Text) : Option EventKind :=
  [roll, lookup, reroll, custom].find? fun kind => kind.name = name

@[simp] theorem ofName?_name (kind : EventKind) : ofName? kind.name = some kind := by
  cases kind <;> decide

end EventKind

/-- What a saved event records. -/
inductive SavedBody where
  | roll (dice rolls total reason : Document)
  | lookup (path title total text depth : Document)
  | reroll (indexPath path kind : Document)
  | custom
  deriving Repr, Inhabited

namespace SavedBody

def kind : SavedBody → EventKind
  | roll .. => .roll
  | lookup .. => .lookup
  | reroll .. => .reroll
  | custom => .custom

/-- The fields that only events of this kind have. -/
def fields : SavedBody → List (Text × Document)
  | roll dice rolls total reason =>
    [("notation", dice), ("rolls", rolls), ("total", total), ("reason", reason)]
  | lookup path title total text depth =>
    [("table_path", path), ("table_title", title), ("roll_total", total), ("result_text", text),
      ("depth", depth)]
  | reroll indexPath path kind =>
    [("index_path", indexPath), ("target_path", path), ("kind", kind)]
  | custom => []

end SavedBody

/-- Why an event is not written on a line: its depth is no number, or makes no margin. -/
inductive LineFault where
  | noNumber
  | margin (fault : MarginFault)
  deriving Repr, DecidableEq, Inhabited

/-- An event in the form in which it is saved. -/
structure SavedEvent where
  sequence : Document
  stamp : Timestamp
  context : Document
  body : SavedBody
  deriving Repr, Inhabited

namespace SavedEvent

def kind (e : SavedEvent) : EventKind := e.body.kind

/-- The dice that the event records, none unless it is a roll; nothing if what it has for them does
not fall into parts. -/
def rolls? (e : SavedEvent) : Option (List Document) :=
  match e.body with
  | .roll _ rolls _ _ => rolls.parts?
  | _ => some []

/-- What the event records as text. A row that is looked up is indented by its depth. -/
def wording (e : SavedEvent) : Except LineFault Text :=
  match e.body with
  | .roll dice rolls total reason =>
    .ok <| "ROLL " ++ dice.display ++ ": " ++ rolls.display ++ " = " ++ total.display ++
      (if reason.isSet then " (" ++ reason.display ++ ")" else "")
  | .lookup _ title total text depth =>
    match depth.wholeNumber? with
    | none => .error .noNumber
    | some depth => do
      let margin ← (Text.margin 2 depth).mapError .margin
      return margin ++ "TABLE " ++ title.display ++ " [" ++ total.display ++ "]: " ++ text.display
  | .reroll indexPath path kind =>
    .ok <| "REROLL " ++ kind.display ++ " " ++ indexPath.display ++ " at " ++ path.display
  | .custom => .ok <| "CUSTOM " ++ e.context.display

def line (e : SavedEvent) : Except LineFault Text :=
  e.wording.map fun wording => "[" ++ e.sequence.display ++ "] " ++ wording

def toDocument (e : SavedEvent) : Document :=
  let common : List (Text × Document) :=
    [("event_type", .text e.kind.name), ("timestamp", .text e.stamp.text),
      ("sequence_number", e.sequence), ("context", e.context)]
  .record (common ++ e.body.fields)

end SavedEvent

/-- What an event records. -/
inductive EventBody where
  | roll (dice : Text) (rolls : List Int) (total : Int) (reason : Text)
  | lookup (path title : Text) (total : Int) (text : Text) (depth : Int)
  | reroll (indexPath : List Int) (path kind : Text)
  | custom
  deriving Repr, DecidableEq, Inhabited

namespace EventBody

def kind : EventBody → EventKind
  | roll .. => .roll
  | lookup .. => .lookup
  | reroll .. => .reroll
  | custom => .custom

def saved : EventBody → SavedBody
  | roll dice rolls total reason => .roll (.text dice) (.ofInts rolls) (.int total) (.text reason)
  | lookup path title total text depth =>
    .lookup (.text path) (.text title) (.int total) (.text text) (.int depth)
  | reroll indexPath path kind => .reroll (.ofInts indexPath) (.text path) (.text kind)
  | custom => .custom

@[simp] theorem kind_saved (body : EventBody) : body.saved.kind = body.kind := by cases body <;> rfl

end EventBody

/-- An entry of the log. -/
structure Event where
  sequence : Int
  stamp : Timestamp
  context : Document
  body : EventBody
  deriving Repr, Inhabited

namespace Event

def kind (e : Event) : EventKind := e.body.kind

/-- The dice that the event records, none unless it is a roll. -/
def rolls (e : Event) : List Int :=
  match e.body with
  | .roll _ rolls _ _ => rolls
  | _ => []

def saved (e : Event) : SavedEvent := ⟨.int e.sequence, e.stamp, e.context, e.body.saved⟩

def line (e : Event) : Except LineFault Text := e.saved.line

@[simp] theorem kind_saved (e : Event) : e.saved.kind = e.kind := e.body.kind_saved

@[simp] theorem rolls?_saved (e : Event) : e.saved.rolls? = some (e.rolls.map Document.int) := by
  obtain ⟨_, _, _, body⟩ := e
  cases body <;> rfl

end Event
end RandomTables
