import RandomTables.Draw.Replay
import RandomTables.RunLog.Load

/-!
# Playing a log back

A replay is made from a log, from a saved log, or from a saved replay. Of a log it needs the dice of
its rolls, in order, and the seed. A file may hold any values for them; what they come to as numbers
is replayed, and where a recorded value is handed out it is shown as it was recorded. A draw fails
that comes to something that is no number.
-/
namespace RandomTables

/-- A seed and a record of draws in the form in which they are saved. -/
structure SavedReplay where
  seed : Document
  stream : Array Document
  deriving Repr, Inhabited

def Replay.ofLog (log : RunLog) : Replay :=
  start (log.seed.wholeNumber?.getD 0) log.stream.toArray

def Replay.saved (r : Replay) : SavedReplay := ⟨.int r.seed, r.stream.map Document.int⟩

namespace SavedReplay

/-- The entries of a map. -/
def fieldsOf (what : Text) : Document → Except LoadFault (List (Scalar × Document))
  | .map entries => .ok entries
  | _ => .error (.fieldless what)

/-- The dice of a saved event; none if it is no roll. -/
def rollsOf (saved : Document) : Except LoadFault (List Document) := do
  let entries ← fieldsOf "event" saved
  if (Document.entry? entries "event_type").bind SavedLog.string? = some EventKind.roll.name then
    SavedLog.partsOf entries "rolls"
  else return []

/-- The replay of a saved log. A seed that does not count as set is zero. -/
def ofLog (saved : Document) : Except LoadFault SavedReplay := do
  let entries ← fieldsOf "log" saved
  let rolls ← (← SavedLog.partsOf entries "events").mapM rollsOf
  let seed := SavedLog.field entries "seed" .null
  return ⟨if seed.isSet then seed else .int 0, rolls.flatten.toArray⟩

/-- The replay that a decoded file holds: a saved replay, or else a saved log. -/
def ofFile (saved : Document) : Except LoadFault SavedReplay :=
  match saved with
  | .map entries =>
    match Document.entry? entries "draw_stream" with
    | none => ofLog saved
    | some stream =>
      match stream.parts? with
      | some parts => .ok ⟨SavedLog.field entries "seed" (.int 0), parts.toArray⟩
      | none => .error (.misshapen "draw_stream")
  | d => .error (if d.parts?.isSome then .fieldless "log" else .misshapen "log")

def read (text : Text) : Except FileFault SavedReplay :=
  match Json.read? text with
  | none => .error .noJson
  | some saved => (ofFile saved).mapError .content

def save (r : SavedReplay) : Text :=
  Json.print (some 2) (.record [("seed", r.seed), ("draw_stream", .list r.stream.toList)])

def replay (r : SavedReplay) : Replay :=
  .start (r.seed.wholeNumber?.getD 0) (r.stream.map fun d => d.wholeNumber?.getD 0)

/-- The figures of a replay with its counters, as a value. -/
def figures (r : SavedReplay) (counted : Replay) : Document :=
  .record [("seed", r.seed), ("total_draws", .int r.stream.size),
    ("furthest_position", .int counted.furthest), ("remaining_draws", .int counted.remaining),
    ("overruns", .int counted.overruns)]

def recorded? (r : SavedReplay) (position : Int) : Option Document :=
  if position < 0 then none else r.stream[position.toNat]?

/-- The draw comes to a recorded value that can be compared with nothing. -/
def failsAtRecord (r : SavedReplay) (q : Request) : Bool :=
  (r.recorded? q.seed).any fun d => !d.isNumber

/-- The draw comes to a seed that nothing can be made up from. -/
def failsAtSeed (r : SavedReplay) (q : Request) : Bool :=
  (r.replay.served? q).isNone && r.seed.wholeNumber?.isNone

/-- The draw can be made. -/
def answers (r : SavedReplay) (q : Request) : Bool := !r.failsAtRecord q && !r.failsAtSeed q

/-- The counters of a replay after a draw that cannot be made: only one that gets as far as the seed
is an overrun. -/
def noteFailing (r : SavedReplay) (counted : Replay) (q : Request) : Replay :=
  { counted.note q with
    overruns := counted.overruns + if r.failsAtRecord q then 0 else 1 }

/-- A value drawn at a position as it is shown: as it was recorded there if it is the recorded
one. -/
def shown (r : SavedReplay) (position value : Int) : Document :=
  match r.recorded? position with
  | some recorded => if recorded.wholeNumber? = some value then recorded else .int value
  | none => .int value

/-- Values drawn one after another from a position on as they are shown. -/
def shownFrom (r : SavedReplay) (position : Int) : List Int → List Document
  | [] => []
  | value :: rest => r.shown position value :: r.shownFrom (position + 1) rest

/-- Events in the form in which they are saved, where every die has been drawn from the replay and
the first of them at a position. -/
def savedEvents (r : SavedReplay) (position : Int) : List Event → List SavedEvent
  | [] => []
  | e :: rest =>
    let saved := match e.body with
      | .roll dice rolls total reason =>
        { e.saved with
          body := .roll (.text dice) (.list (r.shownFrom position rolls)) (.int total)
            (.text reason) }
      | _ => e.saved
    saved :: r.savedEvents (position + e.rolls.length) rest

/-- The form in which a log is saved whose dice have all been drawn from the replay in order. -/
def savedLog (r : SavedReplay) (log : RunLog) : SavedLog :=
  { log.saved with events := (r.savedEvents 0 log.events.toList).toArray }

@[simp] theorem replay_saved (seed : Int) (stream : Array Int) :
    (Replay.start seed stream).saved.replay = Replay.start seed stream := by
  simp [Replay.start, Replay.saved, replay, Document.wholeNumber?, Function.comp_def]

end SavedReplay
end RandomTables
