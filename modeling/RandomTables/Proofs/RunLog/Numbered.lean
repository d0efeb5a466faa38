import Mathlib.Data.List.Range
import RandomTables.Proofs.RunLog.Growth

/-!
# Numbered logs

A log that has grown event by event since it was emptied numbers its events from one on, and counts
them. What it answers then follows: its figures add up, the events after a number are those that are
left when as many are dropped, and its stream is made of the dice of its rolls.
-/
namespace RandomTables

/-- The events of the log are numbered from one on, its own number is that of the last of them, and
each of them is a roll, a look-up or a re-roll. -/
structure RunLog.Numbered (log : RunLog) : Prop where
  sequence : log.sequence = log.events.size
  numbers : log.events.toList.map Event.sequence = (List.range' 1 log.events.size).map Nat.cast
  kinds : ∀ e ∈ log.events.toList, e.kind ≠ .custom

/-- The log has `n` events, numbered from one on, and every question about it is answered by that:
its figures, the events after a number, its stream, and the number of the next event. -/
structure SavedLog.Ordered (log : SavedLog) (n : Nat) : Prop where
  total : log.summary.total = n
  last : log.summary.lastSequence = .int n
  numbers : log.events.toList.map SavedEvent.sequence =
    (List.range' 1 n).map fun number => .int number
  sorts : log.summary.rolls + log.summary.lookups + log.summary.rerolls = n
  since : ∀ k : Nat, log.eventsAfter? none k = some (log.events.toList.drop k)
  stream : ∃ dice : List (List Int),
    (log.ofKind .roll).map SavedEvent.rolls? = dice.map (fun rolls => some (rolls.map .int)) ∧
      log.stream? = some (dice.flatten.map .int)
  next : ∀ stamp body context, log.append? stamp body context =
    some { log with
      sequence := .int (n + 1)
      events := log.events.push ⟨.int (n + 1), stamp, context, body⟩ }

namespace RunLog
variable {log : RunLog}

/-! ## How numbered logs come about -/

theorem numbered_empty (start : Timestamp) : (empty start).Numbered where
  sequence := rfl
  numbers := rfl
  kinds := nofun

theorem Numbered.append (h : log.Numbered) (stamp : Timestamp) {body : EventBody}
    (hbody : body.kind ≠ .custom) (context : Document) :
    (log.append stamp body context).Numbered where
  sequence := by simp [RunLog.append, h.sequence]
  numbers := by
    have hsize : (log.append stamp body context).events.size = log.events.size + 1 := by
      simp [RunLog.append]
    rw [hsize, List.range'_1_concat, append_events]
    simp only [List.map_append, h.numbers, h.sequence]
    simp [Nat.add_comm]
  kinds := by
    intro e he
    rw [append_events, List.mem_append, List.mem_singleton] at he
    obtain he | rfl := he
    · exact h.kinds e he
    · exact hbody

/-- A seed that is set does not matter for the numbers. -/
theorem Numbered.setSeed (h : log.Numbered) (seed : Document) :
    ({ log with seed := seed } : RunLog).Numbered := ⟨h.sequence, h.numbers, h.kinds⟩

end RunLog

/-! ## What they answer -/

/-- Of events that are numbered from `start + 1` on, those after a number are what is left when the
others are dropped. -/
theorem filter_of_numbers {events : List Event} (start : Nat)
    (h : events.map Event.sequence = (List.range' (start + 1) events.length).map Nat.cast)
    (k : Nat) : events.filter (fun e => decide ((k : Int) < e.sequence)) = events.drop (k - start) := by
  induction events generalizing start with
  | nil => simp
  | cons e events ih =>
    rw [List.length_cons, List.range'_succ, List.map_cons, List.map_cons] at h
    obtain ⟨hfirst, hrest⟩ := List.cons.inj h
    have hdrop := ih (start + 1) hrest
    by_cases hk : k ≤ start
    · have hkept : (k : Int) < e.sequence := by omega
      have hnone : k - start = 0 := by omega
      have hnext : k - (start + 1) = 0 := by omega
      rw [List.filter_cons_of_pos (by simpa using hkept), hdrop, hnone, hnext]
      rfl
    · have hleft : ¬ (k : Int) < e.sequence := by omega
      have hone : k - start = k - (start + 1) + 1 := by omega
      rw [List.filter_cons_of_neg (by simpa using hleft), hdrop, hone, List.drop_succ_cons]

/-- Events that are all rolls, look-ups and re-rolls fall into these three kinds. -/
theorem length_of_kinds {events : List Event} (h : ∀ e ∈ events, e.kind ≠ .custom) :
    (events.filter fun e => decide (e.kind = .roll)).length +
      (events.filter fun e => decide (e.kind = .lookup)).length +
      (events.filter fun e => decide (e.kind = .reroll)).length = events.length := by
  induction events with
  | nil => rfl
  | cons e events ih =>
    have hrest := ih fun other hother => h other (List.mem_cons_of_mem e hother)
    have hfirst := h e List.mem_cons_self
    cases hkind : e.kind with
    | custom => exact absurd hkind hfirst
    | roll | lookup | reroll =>
      simp only [List.filter_cons, hkind, List.length_cons]
      simp
      omega

theorem Event.rolls_of_kind_ne {e : Event} (h : e.kind ≠ .roll) : e.rolls = [] := by
  obtain ⟨sequence, stamp, context, body⟩ := e
  cases body with
  | roll => exact absurd rfl h
  | lookup | reroll | custom => rfl

/-- Only rolls have dice. -/
theorem flatMap_rolls_filter (events : List Event) :
    (events.filter fun e => decide (e.kind = .roll)).flatMap Event.rolls =
      events.flatMap Event.rolls := by
  induction events with
  | nil => rfl
  | cons e events ih =>
    by_cases he : e.kind = .roll
    · rw [List.filter_cons_of_pos (by simpa using he), List.flatMap_cons, List.flatMap_cons, ih]
    · rw [List.filter_cons_of_neg (by simpa using he), List.flatMap_cons,
        Event.rolls_of_kind_ne he, List.nil_append, ih]

namespace RunLog
variable {log : RunLog}

theorem ofKind_saved (log : RunLog) (kind : EventKind) :
    log.saved.ofKind kind =
      (log.events.toList.filter fun e => decide (e.kind = kind)).map Event.saved := by
  simp only [SavedLog.ofKind, saved, Array.toList_map, List.filter_map, Function.comp_def,
    Event.kind_saved]

theorem eventsAfter?_saved (log : RunLog) (number : Int) :
    log.saved.eventsAfter? none number =
      some ((log.events.toList.filter fun e => decide (number < e.sequence)).map Event.saved) := by
  have hnumbered : log.saved.events.toList.mapM
      (fun e => e.sequence.wholeNumber?.map fun n => (n, e)) =
        some (log.events.toList.map fun e => (e.sequence, e.saved)) := by
    rw [saved, Array.toList_map, List.mapM_map]
    exact List.mapM_pure
  simp only [SavedLog.eventsAfter?, hnumbered, Option.map_some, Option.all_none, List.filter_true,
    List.filter_map, List.map_map, Function.comp_def, gt_iff_lt]

theorem stream?_saved (log : RunLog) : log.saved.stream? = some (log.stream.map .int) := by
  have hrolls : log.saved.events.toList.mapM SavedEvent.rolls? =
      some (log.events.toList.map fun e => e.rolls.map .int) := by
    rw [saved, Array.toList_map, List.mapM_map]
    simp only [Function.comp_def, Event.rolls?_saved]
    exact List.mapM_pure
  simp only [SavedLog.stream?, hrolls, Option.map_some, stream, List.map_flatMap]
  rfl

/-- A numbered log answers every question as it should. -/
theorem Numbered.ordered (h : log.Numbered) : log.saved.Ordered log.events.size where
  total := by simp [SavedLog.summary, saved]
  last := by simp [SavedLog.summary, saved, h.sequence]
  numbers := by
    have hsaved : log.saved.events.toList.map SavedEvent.sequence =
        (log.events.toList.map Event.sequence).map .int := by
      simp [saved, Event.saved, Function.comp_def]
    rw [hsaved, h.numbers, List.map_map]
    rfl
  sorts := by
    have hkinds := length_of_kinds h.kinds
    simpa only [SavedLog.summary, ofKind_saved, List.length_map, Array.length_toList] using hkinds
  since := by
    intro k
    have hdrop : log.events.toList.filter (fun e => decide ((k : Int) < e.sequence)) =
        log.events.toList.drop k := filter_of_numbers 0 h.numbers k
    rw [eventsAfter?_saved, hdrop, List.map_drop, saved, Array.toList_map]
  stream := by
    let rolled := log.events.toList.filter fun e => decide (e.kind = .roll)
    refine ⟨rolled.map Event.rolls, ?_, ?_⟩
    · simp only [ofKind_saved, List.map_map, Function.comp_def, Event.rolls?_saved, rolled]
    · rw [stream?_saved, stream, ← flatMap_rolls_filter, List.flatMap_def]
  next := by
    intro stamp body context
    simp [SavedLog.append?, saved, h.sequence, Document.wholeNumber?]

end RunLog
end RandomTables
