import RandomTables.Proofs.Roll.Basic
import RandomTables.Proofs.Roll.InGroups
import RandomTables.Proofs.RunLog.Growth

/-!
# What a computation logs

A computation appends events to the log and leaves those that are there. Drawing dice logs nothing;
the group that the dice make is logged once all of them are drawn. So where only dice are rolled,
the events are the groups.
-/
namespace RandomTables

namespace RollState

/-- From `s` on, exactly these events are logged up to `s'`, behind those that are there. They have
the time of the state and no context, and are numbered on from the last number in the log; nothing
else in the log changes. -/
structure Logs (s : RollState) (bodies : List EventBody) (s' : RollState) : Prop where
  now : s'.now = s.now
  start : s'.log.start = s.log.start
  sessionSeed : s'.log.seed = s.log.seed
  sequence : s'.log.sequence = s.log.sequence + bodies.length
  events : s'.log.events.toList =
    s.log.events.toList ++ Event.numbered s.log.sequence s.now bodies

namespace Logs
variable {s t u v : RollState} {bodies more : List EventBody}

theorem refl (s : RollState) : s.Logs [] s :=
  ⟨rfl, rfl, rfl, (Int.add_zero _).symm, (List.append_nil _).symm⟩

theorem trans (h : s.Logs bodies t) (h' : t.Logs more u) : s.Logs (bodies ++ more) u := by
  refine ⟨h'.now.trans h.now, h'.start.trans h.start, h'.sessionSeed.trans h.sessionSeed, ?_, ?_⟩
  · rw [h'.sequence, h.sequence, List.length_append]
    omega
  · rw [h'.events, h.events, h.sequence, h.now, Event.numbered_append, List.append_assoc]

/-- The dice of the events are added to the end of the stream, in order. -/
theorem stream (h : s.Logs bodies t) : t.log.stream = s.log.stream ++ EventBody.rollsOf bodies := by
  rw [RunLog.stream, h.events, List.flatMap_append, ← RunLog.stream,
    Event.flatMap_rolls (Event.numbered ..), Event.map_body_numbered]

/-- Logging one event. -/
theorem logEvent (s : RollState) (body : EventBody) :
    s.Logs [body] { s with log := s.log.add s.now body } :=
  ⟨rfl, rfl, rfl, rfl, RunLog.append_events ..⟩

theorem keep (h : s.Logs [] t) (g : DiceGroup) : s.Logs [g.event] (t.keep g) := by
  have hlast : t.Logs [g.event] (t.keep g) := ⟨rfl, rfl, rfl, rfl, RunLog.append_events ..⟩
  exact h.trans hlast

/-- Two logs that say the same apart from the time still do once the same is logged in both. -/
theorem restamped_eq (h : s.Logs bodies t) (h' : u.Logs bodies v) {stamp : Timestamp}
    (heq : u.log.restamped stamp = s.log.restamped stamp) :
    v.log.restamped stamp = t.log.restamped stamp := by
  obtain ⟨-, hseed, hsequence, hevents⟩ := RunLog.mk.inj heq
  have htoList := congrArg Array.toList hevents
  rw [Array.toList_map, Array.toList_map] at htoList
  refine RunLog.mk.injEq .. ▸ ⟨rfl, ?_, ?_, Array.toList_inj.1 ?_⟩
  · rw [h'.sessionSeed, h.sessionSeed, hseed]
  · rw [h'.sequence, h.sequence, hsequence]
  · rw [Array.toList_map, Array.toList_map, h'.events, h.events, List.map_append, List.map_append,
      Event.map_stamp_numbered, Event.map_stamp_numbered, htoList, hsequence]

end Logs

end RollState

namespace Roll

theorem draw_logs {source : Source} {low high value : Int} {s s' : RollState}
    (h : (draw source low high).runFrom s = (.ok value, s')) : s.Logs [] s' := by
  have hle := le_of_runFrom_draw h
  rw [runFrom_draw hle] at h
  obtain ⟨_, rfl⟩ : _ = value ∧ _ = s' := by simpa using h
  exact ⟨rfl, rfl, rfl, (Int.add_zero _).symm, (List.append_nil _).symm⟩

/-- Drawing logs nothing. -/
theorem drawDice_logs {source : Source} {sides : Int} {n : Nat} {s s' : RollState}
    {values : List Int} (h : (drawDice source sides n).runFrom s = (.ok values, s')) :
    s.Logs [] s' := by
  induction n generalizing s values with
  | zero =>
    obtain ⟨_, rfl⟩ := runFrom_pure_eq_ok_iff.1 h
    exact .refl s
  | succ n ih =>
    obtain ⟨value, mid, hdraw, h⟩ := runFrom_bind_eq_ok_iff.1 h
    obtain ⟨rest, last, hrest, h⟩ := runFrom_bind_eq_ok_iff.1 h
    obtain ⟨_, rfl⟩ := runFrom_pure_eq_ok_iff.1 h
    exact (draw_logs hdraw).trans (ih hrest)

/-- A computation that only rolls dice logs the groups of dice that it rolls. -/
theorem OnlyDice.logs {α : Type} {m : Source → Roll α} (h : OnlyDice m) {source : Source}
    {s s' : RollState} {a : α} (hrun : (m source).runFrom s = (.ok a, s')) :
    ∃ groups : List DiceGroup, s.Logs (groups.map DiceGroup.event) s' := by
  induction h generalizing s s' with
  | pure a =>
    obtain ⟨_, rfl⟩ := runFrom_pure_eq_ok_iff.1 hrun
    exact ⟨[], .refl s⟩
  | group count sides reason =>
    obtain ⟨_, values, t, hvalues, rfl, rfl⟩ := group_eq_ok_iff.1 hrun
    exact ⟨[.ofRolls count sides values reason], (drawDice_logs hvalues).keep _⟩
  | bind _ _ first others =>
    obtain ⟨b, t, hfirst, hothers⟩ := runFrom_bind_eq_ok_iff.1 hrun
    obtain ⟨groups, hlogs⟩ := first hfirst
    obtain ⟨more, hlogs'⟩ := others b hothers
    refine ⟨groups ++ more, ?_⟩
    rw [List.map_append]
    exact hlogs.trans hlogs'

end Roll

end RandomTables
