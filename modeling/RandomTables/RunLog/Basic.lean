import RandomTables.RunLog.Saved

/-!
# The run log

The log numbers its events from one on and keeps them in order, beside the seed and the start of
the session. The stream of a log is every die of its rolls in the order drawn; a replay of that
stream repeats the session.
-/
namespace RandomTables

/-- The log of a session; its seed is null if none is known. -/
structure RunLog where
  start : Timestamp
  seed : Document
  sequence : Int
  events : Array Event
  deriving Repr, Inhabited

namespace RunLog

def empty (start : Timestamp) : RunLog := ⟨start, .null, 0, #[]⟩

/-- The log with one more event, which takes the next number. -/
def append (log : RunLog) (stamp : Timestamp) (body : EventBody) (context : Document) : RunLog :=
  { log with
    sequence := log.sequence + 1
    events := log.events.push ⟨log.sequence + 1, stamp, context, body⟩ }

/-- The log with one more event without context. -/
def add (log : RunLog) (stamp : Timestamp) (body : EventBody) : RunLog :=
  log.append stamp body (.map [])

/-- Every die in the order drawn. -/
def stream (log : RunLog) : List Int := log.events.toList.flatMap Event.rolls

/-- Those of some events that were logged before draw number `draws` of them, counted from zero. -/
def eventsBefore (draws : Nat) : List Event → List Event
  | [] => []
  | e :: rest =>
    if draws < e.rolls.length then [] else e :: eventsBefore (draws - e.rolls.length) rest

/-- The log as it was before draw number `draws` of those made since it had `kept` events. -/
def beforeDraw (log : RunLog) (kept draws : Nat) : RunLog :=
  let events := log.events.toList
  let left := events.take kept ++ eventsBefore draws (events.drop kept)
  { log with sequence := left.length, events := left.toArray }

def saved (log : RunLog) : SavedLog :=
  ⟨log.start, log.seed, .int log.sequence, log.events.map Event.saved⟩

@[simp] theorem append_sequence (log : RunLog) (stamp : Timestamp) (body : EventBody)
    (context : Document) : (log.append stamp body context).sequence = log.sequence + 1 := rfl

@[simp] theorem append_events (log : RunLog) (stamp : Timestamp) (body : EventBody)
    (context : Document) :
    (log.append stamp body context).events.toList =
      log.events.toList ++ [⟨log.sequence + 1, stamp, context, body⟩] := by
  simp [append]

/-- A log and the form it is saved in grow alike. -/
@[simp] theorem append?_saved (log : RunLog) (stamp : Timestamp) (body : EventBody)
    (context : Document) :
    log.saved.append? stamp body.saved context = some (log.append stamp body context).saved := by
  simp [saved, SavedLog.append?, append, Event.saved, Document.wholeNumber?]

end RunLog
end RandomTables
