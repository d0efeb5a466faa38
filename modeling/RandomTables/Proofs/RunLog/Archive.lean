import RandomTables.Proofs.RunLog.Loaded
import RandomTables.Proofs.RunLog.Numbered

/-!
# Logs that are saved and loaded

A log is kept along with the files that it was saved in. Whatever is done with it since it was
emptied, its events stay numbered without gaps, and loading a file brings back what the log was when
that file was saved (`run_ordered`). The encoding of the files is taken to be faithful.
-/
namespace RandomTables

/-- A log, and the names and texts of the files that it was saved in, the newest first. -/
structure Archive where
  log : SavedLog
  files : List (Text × Text)

/-- What is done with a log. A group of dice, a look-up or a re-roll is recorded with a context of
its own, which is a JSON object. -/
inductive LogCall where
  | record (stamp : Timestamp) (body : EventBody) (hbody : body.kind ≠ .custom)
    (context : List (Scalar × Document))
  | setSeed (seed : Int)
  | reset (now : Timestamp)
  | save (path : Text)
  | load (path : Text) (now : Timestamp)

namespace Archive

/-- A log that has just been emptied, and no files. -/
def start (now : Timestamp) : Archive := ⟨.empty now, []⟩

/-- The archive after a call; nothing if the call fails. -/
def call? (a : Archive) : LogCall → Option Archive
  | .record stamp body _ context =>
    (a.log.append? stamp body.saved (.map context)).map fun log => { a with log := log }
  | .setSeed seed => some { a with log := { a.log with seed := .int seed } }
  | .reset now => some { a with log := .empty now }
  | .save path => some { a with files := (path, a.log.save) :: a.files }
  | .load path now =>
    match a.files.lookup path with
    | none => none
    | some text =>
      match SavedLog.loadText now text a.log with
      | (log, none) => some { a with log := log }
      | (_, some _) => none

/-- The archive after some calls; nothing if one of them fails. -/
def run? (a : Archive) (calls : List LogCall) : Option Archive := calls.foldlM call? a

/-- A file is loaded that was saved before, and what is saved is written faithfully. -/
def Allows (a : Archive) : LogCall → Prop
  | .save _ => a.log.Faithful
  | .load path _ => path ∈ a.files.map Prod.fst
  | _ => True

/-- Each of some calls is allowed when it is made. -/
def AllowsAll (a : Archive) : List LogCall → Prop
  | [] => True
  | call :: calls => a.Allows call ∧ ∀ b, a.call? call = some b → b.AllowsAll calls

/-- The log is numbered, and so is each that was saved; its file is written faithfully. -/
structure Sound (a : Archive) : Prop where
  log : ∃ log : RunLog, a.log = log.saved ∧ log.Numbered
  files : ∀ file ∈ a.files, ∃ log : RunLog, file.2 = log.saved.save ∧ log.Numbered ∧
    log.saved.Faithful

variable {a b : Archive} {call : LogCall} {calls : List LogCall} {path text : Text}

theorem sound_start (now : Timestamp) : (start now).Sound where
  log := by
    refine ⟨.empty now, ?_, RunLog.numbered_empty now⟩
    simp [start, SavedLog.empty, RunLog.empty, RunLog.saved]
  files := nofun

/-! ## One call -/

theorem exists_lookup_of_mem {files : List (Text × Text)} (h : path ∈ files.map Prod.fst) :
    ∃ text, files.lookup path = some text ∧ (path, text) ∈ files := by
  induction files with
  | nil => cases h
  | cons file files ih =>
    obtain ⟨name, found⟩ := file
    by_cases hname : path = name
    · subst hname
      exact ⟨found, List.lookup_cons_self, List.mem_cons_self⟩
    · have hrest : path ∈ files.map Prod.fst := (List.mem_cons.1 h).resolve_left hname
      obtain ⟨text, hlookup, hmem⟩ := ih hrest
      refine ⟨text, ?_, List.mem_cons_of_mem _ hmem⟩
      rw [List.lookup_cons, beq_false_of_ne hname]
      exact hlookup

/-- What a call does that loads the file of a log. -/
theorem call?_load {log : SavedLog} (hlookup : a.files.lookup path = some log.save)
    (hlog : log.Faithful) (now : Timestamp) :
    a.call? (.load path now) = some { a with log := log } := by
  simp only [call?, hlookup, SavedLog.loadText_save hlog now a.log]

/-- A record adds one event with the next number and with what is given for it, and changes nothing
else. -/
theorem call?_record {n : Nat} (h : a.log.Ordered n) (stamp : Timestamp) {body : EventBody}
    (hbody : body.kind ≠ .custom) (context : List (Scalar × Document)) :
    a.call? (.record stamp body hbody context) = some ⟨{ a.log with
      sequence := .int (n + 1)
      events := a.log.events.push ⟨.int (n + 1), stamp, .map context, body.saved⟩ }, a.files⟩ := by
  rw [call?, h.next]
  rfl

/-- A call that is allowed succeeds, and keeps the archive sound. -/
theorem Sound.after_call (h : a.Sound) (hcall : a.Allows call) :
    ∃ b, a.call? call = some b ∧ b.Sound := by
  obtain ⟨log, hlog, hnumbered⟩ := h.log
  cases call with
  | record stamp body hbody context =>
    have happend := RunLog.append?_saved log stamp body (.map context)
    refine ⟨{ a with log := (log.append stamp body (.map context)).saved }, ?_, ?_, h.files⟩
    · simp only [call?, hlog, happend, Option.map_some]
    · exact ⟨_, rfl, hnumbered.append stamp hbody _⟩
  | setSeed seed =>
    refine ⟨_, rfl, ⟨{ log with seed := .int seed }, ?_, hnumbered.setSeed _⟩, h.files⟩
    rw [hlog]
    rfl
  | reset now => exact ⟨_, rfl, (sound_start now).log, h.files⟩
  | save path =>
    refine ⟨_, rfl, h.log, fun file hfile => ?_⟩
    obtain rfl | hfile := List.mem_cons.1 hfile
    · exact ⟨log, by rw [hlog], hnumbered, hlog ▸ hcall⟩
    · exact h.files file hfile
  | load path now =>
    obtain ⟨text, hlookup, hmem⟩ := exists_lookup_of_mem hcall
    obtain ⟨saved, hsaved, hsavedNumbered, hfaithful⟩ := h.files _ hmem
    have htext : text = saved.saved.save := hsaved
    rw [htext] at hlookup
    exact ⟨_, call?_load hlookup hfaithful now, ⟨saved, rfl, hsavedNumbered⟩, h.files⟩

/-- A call that does not save to a path leaves alone what was saved there. -/
theorem lookup_of_call? (h : a.call? call = some b) (hcall : call ≠ .save path) :
    b.files.lookup path = a.files.lookup path := by
  cases call with
  | record stamp body hbody context =>
    obtain ⟨log, _, rfl⟩ := Option.map_eq_some_iff.1 h
    rfl
  | setSeed | reset =>
    obtain rfl := Option.some.inj h
    rfl
  | save other =>
    obtain rfl := Option.some.inj h
    have hne : path ≠ other := by
      rintro rfl
      exact hcall rfl
    rw [List.lookup_cons, beq_false_of_ne hne]
  | load other now =>
    simp only [call?] at h
    split at h
    · cases h
    · split at h
      · obtain rfl := Option.some.inj h
        rfl
      · cases h

/-! ## Runs -/

theorem run?_cons (a : Archive) (call : LogCall) (calls : List LogCall) :
    a.run? (call :: calls) = (a.call? call).bind fun b => b.run? calls := rfl

theorem run?_append (a : Archive) (calls more : List LogCall) :
    a.run? (calls ++ more) = (a.run? calls).bind fun b => b.run? more := by
  simp only [run?, List.foldlM_append]
  rfl

/-- Calls that are allowed all succeed, and keep the archive sound. -/
theorem Sound.after_run (h : a.Sound) (hcalls : a.AllowsAll calls) :
    ∃ b, a.run? calls = some b ∧ b.Sound := by
  induction calls generalizing a with
  | nil => exact ⟨a, rfl, h⟩
  | cons call calls ih =>
    obtain ⟨b, hb, hsound⟩ := h.after_call hcalls.1
    obtain ⟨c, hc, hsound⟩ := ih hsound (hcalls.2 b hb)
    exact ⟨c, by rw [run?_cons, hb]; exact hc, hsound⟩

/-- Calls that are all allowed are allowed up to any of them. -/
theorem AllowsAll.of_append {more : List LogCall} (h : a.AllowsAll (calls ++ more)) :
    a.AllowsAll calls ∧ ∀ b, a.run? calls = some b → b.AllowsAll more := by
  induction calls generalizing a with
  | nil =>
    refine ⟨trivial, fun b hb => ?_⟩
    obtain rfl := Option.some.inj hb
    exact h
  | cons call calls ih =>
    refine ⟨⟨h.1, fun b hb => (ih (h.2 b hb)).1⟩, fun c hc => ?_⟩
    rw [run?_cons] at hc
    obtain ⟨b, hb, hc⟩ := Option.bind_eq_some_iff.1 hc
    exact (ih (h.2 b hb)).2 c hc

theorem allowsAll_cons (hcall : a.Allows call) (h : a.call? call = some b)
    (hcalls : b.AllowsAll calls) : a.AllowsAll (call :: calls) := by
  refine ⟨hcall, fun c hc => ?_⟩
  obtain rfl := Option.some.inj (h.symm.trans hc)
  exact hcalls

theorem lookup_of_run? (h : a.run? calls = some b) (hcalls : .save path ∉ calls) :
    b.files.lookup path = a.files.lookup path := by
  induction calls generalizing a with
  | nil =>
    obtain rfl := Option.some.inj h
    rfl
  | cons call calls ih =>
    rw [run?_cons] at h
    obtain ⟨c, hc, h⟩ := Option.bind_eq_some_iff.1 h
    obtain ⟨hfirst, hrest⟩ := List.ne_and_not_mem_of_not_mem_cons hcalls
    rw [ih h hrest, lookup_of_call? hc hfirst.symm]

/-- Calls on a log that has just been emptied all succeed where they load files that were saved before
and what is saved is written faithfully. The log that they lead to is numbered from one on and answers
as it should, and whatever is recorded next is added to it as one event, with the next number. If the
last of the calls loads a file, the log is what it was when that file was saved last, with its start,
its seed, its number and all of its events. -/
theorem run_ordered (now : Timestamp) (calls : List LogCall)
    (hcalls : (start now).AllowsAll calls) :
    ∃ a n, (start now).run? calls = some a ∧ a.log.Ordered n ∧
      (∀ stamp body hbody context, a.call? (.record stamp body hbody context) =
        some ⟨{ a.log with
          sequence := .int (n + 1)
          events := a.log.events.push ⟨.int (n + 1), stamp, .map context, body.saved⟩ },
          a.files⟩) ∧
      ∀ before path between later, calls = before ++ .save path :: between ++ [.load path later] →
        .save path ∉ between → ∃ b, (start now).run? before = some b ∧ a.log = b.log := by
  obtain ⟨a, ha, hsound⟩ := (sound_start now).after_run hcalls
  obtain ⟨log, hlog, hnumbered⟩ := hsound.log
  have hordered : a.log.Ordered log.events.size := hlog ▸ hnumbered.ordered
  refine ⟨a, log.events.size, ha, hordered, fun stamp body hbody context =>
    call?_record hordered stamp hbody context, ?_⟩
  rintro before path between later rfl hbetween
  -- The calls before the file is saved, the saving, the calls after it, the loading.
  obtain ⟨c, hc, hload⟩ := Option.bind_eq_some_iff.1 ((run?_append _ _ _).symm.trans ha)
  obtain ⟨b, hb, hsave⟩ := Option.bind_eq_some_iff.1 ((run?_append _ _ _).symm.trans hc)
  refine ⟨b, hb, ?_⟩
  have hfaithful : b.log.Faithful := (hcalls.of_append.1.of_append.2 b hb).1
  have hlookup : c.files.lookup path = some b.log.save := by
    have hsaved : (Archive.mk b.log ((path, b.log.save) :: b.files)).run? between = some c := hsave
    rw [lookup_of_run? hsaved hbetween, List.lookup_cons_self]
  have hlast : c.run? [.load path later] = some { c with log := b.log } := by
    rw [run?_cons, call?_load hlookup hfaithful later]
    rfl
  obtain rfl := Option.some.inj (hload.symm.trans hlast)
  rfl

/-- The skirmish is saved and loaded again, with a look-up and an emptied log in between. -/
def skirmishCalls : List LogCall :=
  [.setSeed 7,
    .record ⟨2024, 5, 4, 6, 31, 0, 0, none⟩ (.roll "1d20" [17] 17 "attack") nofun [],
    .save "skirmish.json",
    .record ⟨2024, 5, 4, 6, 32, 0, 0, none⟩ (.lookup "/wound" "Wound" 3 "a scratch" 0) nofun
      [(.text "round", .int 1)],
    .reset ⟨2024, 5, 4, 7, 0, 0, 0, none⟩,
    .load "skirmish.json" ⟨2024, 5, 4, 7, 1, 0, 0, none⟩]

theorem skirmish_faithful : SavedLog.skirmish.Faithful where
  json := by decide +kernel
  start := by with_unfolding_all rfl
  stamps := by
    intro e he
    obtain rfl := List.mem_singleton.1 he
    with_unfolding_all rfl

theorem skirmishCalls_ordered :
    (start SavedLog.skirmish.start).AllowsAll skirmishCalls ∧
      ∃ a n, (start SavedLog.skirmish.start).run? skirmishCalls = some a ∧ a.log.Ordered n ∧
        ∃ b, (start SavedLog.skirmish.start).run? (skirmishCalls.take 2) = some b ∧
          a.log = b.log := by
  have hcalls : (start SavedLog.skirmish.start).AllowsAll skirmishCalls :=
    allowsAll_cons trivial rfl <| allowsAll_cons trivial rfl <|
      allowsAll_cons skirmish_faithful rfl <| allowsAll_cons trivial rfl <|
      allowsAll_cons trivial rfl ⟨List.mem_singleton_self _, fun _ _ => trivial⟩
  obtain ⟨a, n, ha, hordered, -, hload⟩ := run_ordered _ skirmishCalls hcalls
  refine ⟨hcalls, a, n, ha, hordered, ?_⟩
  exact hload _ "skirmish.json" ((skirmishCalls.drop 3).take 2) _ rfl (by simp [skirmishCalls])

end Archive
end RandomTables
