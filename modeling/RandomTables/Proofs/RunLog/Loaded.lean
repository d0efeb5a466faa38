import Mathlib.Data.List.Forall2
import RandomTables.Proofs.Definition.Sides
import RandomTables.RunLog.Load

/-!
# What loading leaves

Loading takes nothing from the log at hand. If everything in a file can be read, the log then holds
what the file holds. Otherwise it holds what was read until then: nothing, a start without events, or
the events before the first one that cannot be read. So a file that cannot be loaded costs the log its
contents, unless the file is no JSON at all (`loadText_outcome`). A log that was saved is loaded as it
was (`loadText_save`).
-/
namespace RandomTables.SavedLog
variable {now : Timestamp} {entries : List (Scalar × Document)} {log loaded left : SavedLog}
  {items : List Document} {events : List SavedEvent} {fault : LoadFault}

/-! ## The events of a file -/

/-- The items save these events. -/
def Decodes (items : List Document) (events : List SavedEvent) : Prop :=
  List.Forall₂ (fun item e => eventOf item = .ok e) items events

/-- Events that can be read are taken over one after another, whatever follows them. -/
theorem takeEvents_append (h : Decodes items events) (log : SavedLog) (rest : List Document) :
    takeEvents log (items ++ rest) =
      takeEvents { log with events := log.events ++ events.toArray } rest := by
  induction h generalizing log with
  | nil => simp
  | cons hitem _ ih =>
    rw [List.cons_append, takeEvents]
    simp [hitem, ih]

/-- Either all items are events, or there is a first one that is none. -/
theorem decodes_or_stops (items : List Document) :
    (∃ events, Decodes items events) ∨ ∃ before item after events fault,
      items = before ++ item :: after ∧ Decodes before events ∧ eventOf item = .error fault := by
  induction items with
  | nil => exact .inl ⟨[], .nil⟩
  | cons item items ih =>
    cases hitem : eventOf item with
    | error fault => exact .inr ⟨[], item, items, [], fault, rfl, .nil, hitem⟩
    | ok e =>
      obtain ⟨events, hevents⟩ | ⟨before, other, after, events, fault, rfl, hbefore, hother⟩ := ih
      · exact .inl ⟨e :: events, .cons hitem hevents⟩
      · exact .inr ⟨item :: before, other, after, e :: events, fault, rfl, .cons hitem hbefore,
          hother⟩

/-- A saved event is read as it was, if its timestamp is. -/
theorem eventOf_toDocument {e : SavedEvent} (h : Timestamp.read e.stamp.text = .ok e.stamp) :
    eventOf e.toDocument = .ok e := by
  obtain ⟨sequence, stamp, context, body⟩ := e
  cases body with
  | roll | lookup | reroll | custom =>
    refine bind_eq_ok_iff.2 ⟨_, rfl, bind_eq_ok_iff.2 ⟨_, rfl, bind_eq_ok_iff.2 ⟨stamp, ?_, rfl⟩⟩⟩
    refine bind_eq_ok_iff.2 ⟨.text stamp.text, rfl, ?_⟩
    simp only [string?, h]

/-! ## Outcomes -/

/-- The map saves the log: its start and its events can be read. The seed and the number of the last
event may be any values, or absent for none and zero. -/
structure Saves (entries : List (Scalar × Document)) (log : SavedLog) : Prop where
  start : stampOf entries "session_start" = .ok log.start
  seed : field entries "seed" .null = log.seed
  sequence : field entries "sequence" (.int 0) = log.sequence
  events : ∃ items, partsOf entries "events" = .ok items ∧ Decodes items log.events.toList

/-- What is left where loading stops at the time `now`, and why it stops. -/
inductive StopsAt (entries : List (Scalar × Document)) (now : Timestamp) :
    SavedLog → LoadFault → Prop where
  | start {fault : LoadFault} (hstart : stampOf entries "session_start" = .error fault) :
    StopsAt entries now (empty now) fault
  | noEvents {start : Timestamp} {fault : LoadFault}
    (hstart : stampOf entries "session_start" = .ok start)
    (hparts : partsOf entries "events" = .error fault) :
    StopsAt entries now
      ⟨start, field entries "seed" .null, field entries "sequence" (.int 0), #[]⟩ fault
  | event {start : Timestamp} {before after : List Document} {item : Document}
    {events : List SavedEvent} {fault : LoadFault}
    (hstart : stampOf entries "session_start" = .ok start)
    (hparts : partsOf entries "events" = .ok (before ++ item :: after))
    (hbefore : Decodes before events) (hitem : eventOf item = .error fault) :
    StopsAt entries now
      ⟨start, field entries "seed" .null, field entries "sequence" (.int 0), events.toArray⟩ fault

theorem load_of_saves (h : Saves entries log) (now : Timestamp) :
    load now (.map entries) = (log, none) := by
  obtain ⟨items, hparts, hevents⟩ := h.events
  have htake := takeEvents_append hevents ⟨log.start, log.seed, log.sequence, #[]⟩ []
  rw [List.append_nil] at htake
  simp only [load, fieldsOf, h.start, hparts, h.seed, h.sequence, htake]
  simp [takeEvents]

theorem load_of_stopsAt (h : StopsAt entries now left fault) :
    load now (.map entries) = (left, some fault) := by
  cases h with
  | start hstart => simp only [load, fieldsOf, hstart]
  | noEvents hstart hparts => simp only [load, fieldsOf, hstart, hparts]
  | event hstart hparts hbefore hitem =>
    simp only [load, fieldsOf, hstart, hparts, takeEvents_append hbefore, takeEvents, hitem]
    simp

/-- A map saves a log, or loading stops somewhere. -/
theorem saves_or_stopsAt (entries : List (Scalar × Document)) (now : Timestamp) :
    (∃ loaded, Saves entries loaded) ∨ ∃ left fault, StopsAt entries now left fault := by
  cases hstart : stampOf entries "session_start" with
  | error fault => exact .inr ⟨_, fault, .start hstart⟩
  | ok start =>
    cases hparts : partsOf entries "events" with
    | error fault => exact .inr ⟨_, fault, .noEvents hstart hparts⟩
    | ok items =>
      obtain ⟨events, hevents⟩ | ⟨before, item, after, events, fault, rfl, hbefore, hitem⟩ :=
        decodes_or_stops items
      · exact .inl ⟨⟨start, _, _, events.toArray⟩, hstart, rfl, rfl, items, hparts, hevents⟩
      · exact .inr ⟨_, fault, .event hstart hparts hbefore hitem⟩

theorem load_eq_none_iff : load now (.map entries) = (loaded, none) ↔ Saves entries loaded := by
  refine ⟨fun h => ?_, fun h => load_of_saves h now⟩
  obtain ⟨log, hlog⟩ | ⟨rest, why, hrest⟩ := saves_or_stopsAt entries now
  · rw [load_of_saves hlog now] at h
    obtain rfl := congrArg Prod.fst h
    exact hlog
  · rw [load_of_stopsAt hrest] at h
    cases congrArg Prod.snd h

theorem load_eq_some_iff :
    load now (.map entries) = (left, some fault) ↔ StopsAt entries now left fault := by
  refine ⟨fun h => ?_, load_of_stopsAt⟩
  obtain ⟨log, hlog⟩ | ⟨rest, why, hrest⟩ := saves_or_stopsAt entries now
  · rw [load_of_saves hlog now] at h
    cases congrArg Prod.snd h
  · rw [load_of_stopsAt hrest] at h
    obtain rfl := congrArg Prod.fst h
    obtain rfl := Option.some.inj (congrArg Prod.snd h)
    exact hrest

/-! ## Files -/

section Files
variable {text : Text}

/-- What a file leaves does not depend on the log at hand. -/
theorem loadText_eq_iff {saved : Document} (hread : Json.read? text = some saved)
    (log : SavedLog) (why : Option LoadFault) :
    loadText now text log = (left, why.map .content) ↔ load now saved = (left, why) := by
  have hinj : Function.Injective (Option.map FileFault.content) :=
    Option.map_injective fun _ _ => FileFault.content.inj
  simp only [loadText, hread, Prod.ext_iff, hinj.eq_iff]

/-- The file of the log says what was written to it: JSON gives back the value, and each timestamp is
read as what it was. -/
structure Faithful (log : SavedLog) : Prop where
  json : Json.read? log.save = some log.toDocument
  start : Timestamp.read log.start.text = .ok log.start
  stamps : ∀ e ∈ log.events.toList, Timestamp.read e.stamp.text = .ok e.stamp

/-- What a log is saved as saves it. -/
theorem saves_toDocument (hstart : Timestamp.read log.start.text = .ok log.start)
    (hstamps : ∀ e ∈ log.events.toList, Timestamp.read e.stamp.text = .ok e.stamp) :
    ∃ entries, log.toDocument = .map entries ∧ Saves entries log := by
  refine ⟨_, rfl, ?_, rfl, rfl, _, rfl, ?_⟩
  · refine bind_eq_ok_iff.2 ⟨.text log.start.text, rfl, ?_⟩
    simp only [string?, hstart]
  · refine List.forall₂_map_left_iff.2 (List.forall₂_same.2 fun e he => ?_)
    exact eventOf_toDocument (hstamps e he)

/-- A log that was saved is loaded as it was: its start, its seed, its number and its events. -/
theorem loadText_save (h : log.Faithful) (now : Timestamp) (other : SavedLog) :
    loadText now log.save other = (log, none) := by
  obtain ⟨entries, hentries, hsaves⟩ := saves_toDocument h.start h.stamps
  have hread : Json.read? log.save = some (.map entries) := h.json.trans (congrArg some hentries)
  exact (loadText_eq_iff hread other none).2 (load_of_saves hsaves now)

/-- Loading a file that holds a map succeeds exactly if the map saves a log, and then the log at hand
is that one. In every other case loading fails, and what it leaves is what was read until it stopped,
whatever the log was before. -/
theorem loadText_outcome (hread : Json.read? text = some (.map entries)) (now : Timestamp)
    (log : SavedLog) :
    (∀ loaded, loadText now text log = (loaded, none) ↔ Saves entries loaded) ∧
    (∀ left why, loadText now text log = (left, some (.content why)) ↔
      StopsAt entries now left why) ∧
    ((∃ loaded, loadText now text log = (loaded, none)) ∨
      ∃ left why, loadText now text log = (left, some (.content why))) := by
  have hloads : ∀ loaded, loadText now text log = (loaded, none) ↔ Saves entries loaded :=
    fun loaded => (loadText_eq_iff hread log none).trans load_eq_none_iff
  have hstops : ∀ left why, loadText now text log = (left, some (.content why)) ↔
      StopsAt entries now left why :=
    fun left why => (loadText_eq_iff hread log (some why)).trans load_eq_some_iff
  refine ⟨hloads, hstops, ?_⟩
  obtain ⟨loaded, hloaded⟩ | ⟨left, why, hleft⟩ := saves_or_stopsAt entries now
  · exact .inl ⟨loaded, (hloads loaded).2 hloaded⟩
  · exact .inr ⟨left, why, (hstops left why).2 hleft⟩

end Files

/-- A log of one roll. -/
def skirmish : SavedLog :=
  ⟨⟨2024, 5, 4, 6, 30, 0, 0, none⟩, .int 7, .int 1,
    #[⟨.int 1, ⟨2024, 5, 4, 6, 31, 0, 0, none⟩, .map [],
      .roll (.text "1d20") (.ofInts [17]) (.int 17) (.text "attack")⟩]⟩

/-- The skirmish as it is saved, with a second event of a kind that there is not. -/
def brokenSkirmish : List (Scalar × Document) :=
  [(.text "session_start", .text "2024-05-04T06:30:00"), (.text "seed", .int 7),
    (.text "sequence", .int 2),
    (.text "events", .list (skirmish.events.toList.map SavedEvent.toDocument ++
      [.record [("event_type", .text "dance")]]))]

/-- Of the broken file the first event is taken over, whatever the log was before. -/
theorem brokenSkirmish_outcome :
    Json.read? (Json.print none (.map brokenSkirmish)) = some (.map brokenSkirmish) ∧
      ∀ now log, loadText now (Json.print none (.map brokenSkirmish)) log =
        ({ skirmish with sequence := .int 2 }, some (.content (.unknownKind (.text "dance")))) := by
  have hread : Json.read? (Json.print none (.map brokenSkirmish)) = some (.map brokenSkirmish) := by
    decide +kernel
  refine ⟨hread, fun now log => ((loadText_outcome hread now log).2.1 _ _).2 ?_⟩
  have hevents : Decodes (skirmish.events.toList.map SavedEvent.toDocument)
      skirmish.events.toList := .cons (eventOf_toDocument (by with_unfolding_all rfl)) .nil
  have hstart : stampOf brokenSkirmish "session_start" = .ok skirmish.start := by with_unfolding_all rfl
  exact .event hstart rfl hevents rfl

/-- An empty map saves no log, and loading it does not leave the skirmish as it was. -/
theorem skirmish_lost :
    Json.read? "\x7b\x7d" = some (.map []) ∧ ∀ now,
      ¬ ((∃ loaded, Saves [] loaded ∧ loadText now "\x7b\x7d" skirmish = (loaded, none)) ∨
        ∃ fault, loadText now "\x7b\x7d" skirmish = (skirmish, some fault)) := by
  refine ⟨by decide, fun now => ?_⟩
  have hload : loadText now "\x7b\x7d" skirmish =
      (.empty now, some (.content (.missing "session_start"))) := rfl
  rw [hload]
  rintro (⟨loaded, _, h⟩ | ⟨fault, h⟩)
  · cases congrArg Prod.snd h
  · cases congrArg (fun left => left.1.seed) h

end RandomTables.SavedLog
