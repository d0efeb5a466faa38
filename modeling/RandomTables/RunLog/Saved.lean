import RandomTables.RunLog.Event

/-!
# Saved logs

A saved log holds what a log holds: the start of the session, the seed, the number of the last
event, and the events in order. The seed and the number may be any value, and no seed is null. What
can be asked of a log is answered here. The stream of a log is every die of its rolls in the order
drawn.
-/
namespace RandomTables

/-- A log in the form in which it is saved. -/
structure SavedLog where
  start : Timestamp
  seed : Document
  sequence : Document
  events : Array SavedEvent
  deriving Repr, Inhabited

namespace SavedLog

def empty (start : Timestamp) : SavedLog := ⟨start, .null, .int 0, #[]⟩

/-- The log with one more event, which takes the next number; nothing if the log does not count in
numbers. -/
def append? (log : SavedLog) (stamp : Timestamp) (body : SavedBody) (context : Document) :
    Option SavedLog :=
  log.sequence.wholeNumber?.map fun n =>
    { log with
      sequence := .int (n + 1)
      events := log.events.push ⟨.int (n + 1), stamp, context, body⟩ }

/-- The events after a number, of one kind or of all; nothing if one of them has no number. -/
def eventsAfter? (log : SavedLog) (kind : Option EventKind) (number : Int) :
    Option (List SavedEvent) :=
  let numbered (e : SavedEvent) : Option (Int × SavedEvent) :=
    e.sequence.wholeNumber?.map fun n => (n, e)
  (log.events.toList.mapM numbered).map fun events =>
    ((events.filter fun e => decide (e.1 > number)).map (·.2)).filter fun e =>
      kind.all fun k => decide (e.kind = k)

def ofKind (log : SavedLog) (kind : EventKind) : List SavedEvent :=
  log.events.toList.filter fun e => decide (e.kind = kind)

/-- Every die in the order drawn. -/
def stream? (log : SavedLog) : Option (List Document) :=
  (log.events.toList.mapM SavedEvent.rolls?).map List.flatten

structure Summary where
  start : Timestamp
  seed : Document
  total : Nat
  rolls : Nat
  lookups : Nat
  rerolls : Nat
  lastSequence : Document
  deriving Repr

/-- The figures as a value. -/
def Summary.toDocument (s : Summary) : Document :=
  .record [("session_start", .text s.start.text), ("seed", s.seed), ("total_events", .int s.total),
    ("rolls", .int s.rolls), ("table_lookups", .int s.lookups), ("rerolls", .int s.rerolls),
    ("last_sequence", s.lastSequence)]

def summary (log : SavedLog) : Summary where
  start := log.start
  seed := log.seed
  total := log.events.size
  rolls := (log.ofKind .roll).length
  lookups := (log.ofKind .lookup).length
  rerolls := (log.ofKind .reroll).length
  lastSequence := log.sequence

/-- The last `n` of some events; all of them for zero, and all but the first `-n` for a negative
number. -/
def newest {α : Type} (n : Int) (events : List α) : List α :=
  if n = 0 then events
  else if n < 0 then events.drop n.natAbs
  else events.drop (events.length - n.toNat)

/-- The log as lines of text: a head, then the events of some kinds, or of all when none is named,
cut to the newest ones. -/
def format (log : SavedLog) (kinds : List EventKind) (limit : Int) : Except LineFault Text :=
  let seed : Text := if log.seed.isNull then "not set" else log.seed.display
  let chosen := log.events.toList.filter fun e => kinds.isEmpty || kinds.contains e.kind
  let head : List Text :=
    ["=== Run Log ===", "Session: " ++ log.start.text, "Seed: " ++ seed,
      "Total Events: " ++ Text.integer log.events.size, ""]
  ((newest limit chosen).mapM SavedEvent.line).map fun lines => Text.joinWith "\n" (head ++ lines)

def toDocument (log : SavedLog) : Document :=
  .record [("session_start", .text log.start.text), ("seed", log.seed),
    ("sequence", log.sequence), ("events", .list (log.events.toList.map SavedEvent.toDocument))]

end SavedLog
end RandomTables
