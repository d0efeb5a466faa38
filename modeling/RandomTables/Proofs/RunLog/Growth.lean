import RandomTables.RunLog.Basic

/-!
# How a log grows

A computation appends events of one timestamp to the log, which are numbered on from the last number
in it. Their dice are those of what they record, and apart from the time they say the same at any
timestamp.
-/
namespace RandomTables

/-- The dice that an event of this kind records, none unless it is a roll. -/
def EventBody.rolls : EventBody → List Int
  | .roll _ rolls _ _ => rolls
  | _ => []

def EventBody.rollsOf (bodies : List EventBody) : List Int := bodies.flatMap EventBody.rolls

namespace EventBody

@[simp] theorem rollsOf_nil : rollsOf [] = [] := rfl

@[simp] theorem rollsOf_append (bodies more : List EventBody) :
    rollsOf (bodies ++ more) = rollsOf bodies ++ rollsOf more := by
  simp [rollsOf]

@[simp] theorem rollsOf_singleton (body : EventBody) : rollsOf [body] = body.rolls := by
  simp [rollsOf]

end EventBody

theorem Event.rolls_eq (e : Event) : e.rolls = e.body.rolls := by
  obtain ⟨_, _, _, body⟩ := e
  cases body <;> rfl

/-- The dice of events are those of what they record. -/
theorem Event.flatMap_rolls (events : List Event) :
    events.flatMap Event.rolls = EventBody.rollsOf (events.map Event.body) := by
  have hrolls : Event.rolls = fun e => e.body.rolls := funext Event.rolls_eq
  rw [hrolls, EventBody.rollsOf, List.flatMap_map]

namespace Event

/-- The events that record these bodies at one time: without context, and numbered on from the last
number given before. -/
def numbered (last : Int) (stamp : Timestamp) : List EventBody → List Event
  | [] => []
  | body :: rest => ⟨last + 1, stamp, .map [], body⟩ :: numbered (last + 1) stamp rest

/-- Further events take the numbers after those of the first ones. -/
theorem numbered_append (last : Int) (stamp : Timestamp) (bodies more : List EventBody) :
    numbered last stamp (bodies ++ more) =
      numbered last stamp bodies ++ numbered (last + bodies.length) stamp more := by
  induction bodies generalizing last with
  | nil => simp [numbered]
  | cons body rest ih =>
    have hlast : last + 1 + (rest.length : Int) = last + ((body :: rest).length : Int) := by
      rw [List.length_cons]
      omega
    rw [List.cons_append, numbered, ih, hlast]
    rfl

/-- The events record what they are made for, in order. -/
@[simp] theorem map_body_numbered (last : Int) (stamp : Timestamp) (bodies : List EventBody) :
    (numbered last stamp bodies).map body = bodies := by
  induction bodies generalizing last with
  | nil => rfl
  | cons body rest ih => rw [numbered, List.map_cons, ih]

/-- Events of another time with the same numbers say the same. -/
theorem map_stamp_numbered (last : Int) (stamp at_ : Timestamp) (bodies : List EventBody) :
    (numbered last stamp bodies).map (fun e => { e with stamp := at_ }) =
      numbered last at_ bodies := by
  induction bodies generalizing last with
  | nil => rfl
  | cons body rest ih => rw [numbered, List.map_cons, ih, numbered]

end Event

namespace RunLog

@[simp] theorem stream_empty (start : Timestamp) : (empty start).stream = [] := rfl

/-- The log as it would be if all of it had happened at one time. -/
def restamped (log : RunLog) (stamp : Timestamp) : RunLog :=
  ⟨stamp, log.seed, log.sequence, log.events.map fun e => { e with stamp := stamp }⟩

@[simp] theorem restamped_empty (start stamp : Timestamp) :
    (empty start).restamped stamp = empty stamp := by
  simp [restamped, empty]

end RunLog
end RandomTables
