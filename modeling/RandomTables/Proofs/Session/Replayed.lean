import RandomTables.Proofs.Roller.InGroups
import RandomTables.Proofs.Roller.Run
import RandomTables.Proofs.Session.Basic
import RandomTables.RunLog.Playback

/-!
# A replay repeats a session

A session is played back by running the same calls once more, with a replay of its log in place of
the mixing source. Call by call, the second session stays in step with the first one: it has the
same trees, it stands at the position up to which the first log holds dice, and its log says the
same apart from the time.
-/
namespace RandomTables

namespace SavedReplay

theorem rollsOf_toDocument (e : Event) :
    rollsOf e.saved.toDocument = .ok (e.rolls.map Document.int) := by
  obtain ⟨_, _, _, body⟩ := e
  cases body <;> rfl

theorem mapM_rollsOf (events : List Event) :
    (events.map fun e => e.saved.toDocument).mapM rollsOf =
      .ok (events.map fun e => e.rolls.map Document.int) := by
  induction events with
  | nil => rfl
  | cons e rest ih =>
    rw [List.map_cons, List.mapM_cons, rollsOf_toDocument, ih]
    rfl

/-- A log that is saved and read back as a replay has its stream as the record. -/
theorem ofLog_toDocument (log : RunLog) :
    ofLog log.saved.toDocument =
      .ok ⟨if log.seed.isSet then log.seed else .int 0,
        (log.stream.map Document.int).toArray⟩ := by
  have hevents : log.saved.events.toList.map SavedEvent.toDocument =
      log.events.toList.map fun e => e.saved.toDocument := by
    simp [RunLog.saved, Function.comp_def]
  have hstream : (log.events.toList.map fun e => e.rolls.map Document.int).flatten =
      log.stream.map Document.int := by
    simp [RunLog.stream, List.flatMap, List.map_flatten, Function.comp_def]
  -- What is looked up stands in an entry of its own.
  obtain ⟨entries, hentries, hparts, hseed⟩ : ∃ entries,
      log.saved.toDocument = .map entries ∧
      SavedLog.partsOf entries "events" =
        .ok (log.saved.events.toList.map SavedEvent.toDocument) ∧
      SavedLog.field entries "seed" .null = log.seed :=
    ⟨_, rfl, rfl, rfl⟩
  have hrolls := mapM_rollsOf log.events.toList
  rw [← hevents] at hrolls
  rw [hentries, ← hstream]
  simp only [ofLog, fieldsOf, hparts, hrolls, hseed, bind, Except.bind, pure, Except.pure]

/-- A replay of a saved log holds the dice of the log in its record. -/
theorem replay_ofLog {log : RunLog} {saved : SavedReplay}
    (h : ofLog log.saved.toDocument = .ok saved) :
    ∃ seed, saved.replay = .start seed log.stream.toArray := by
  rw [ofLog_toDocument] at h
  obtain rfl := Except.ok.inj h
  refine ⟨((if log.seed.isSet then log.seed else .int 0).wholeNumber?).getD 0, ?_⟩
  simp [replay, Document.wholeNumber?, Function.comp_def]

end SavedReplay

namespace Session

/-- The session stands where another one stands, having drawn every die from a replay. -/
structure Follows (y : Session) (replay : Replay) (x : Session) : Prop where
  trees : y.trees = x.trees
  seed : y.seed = x.log.stream.length
  log : ∀ stamp, y.log.restamped stamp = x.log.restamped stamp
  served : ∀ q ∈ y.requests, (replay.served? q).isSome

theorem start_follows (replay : Replay) (now later : Timestamp) (seed : Int) :
    (start later 0).Follows replay (start now seed) :=
  ⟨rfl, rfl, fun stamp => by simp [start], by simp [start]⟩

/-- What leads from `x` to `x'` leads a session that follows `x` to one that follows `x'`, when it
is done again with a replay of the dice that were logged in between. -/
def Repeats (x : Session) (again : Replay → Session → Option Session) (x' : Session) : Prop :=
  ∃ dice, x'.log.stream = x.log.stream ++ dice ∧
    ∀ (replay : Replay) (y : Session), y.Follows replay x → replay.Holds y.seed dice →
      ∃ y', again replay y = some y' ∧ y'.Follows replay x'

namespace Repeats
variable {x x' x'' : Session} {again further : Replay → Session → Option Session}

theorem refl (x : Session) : x.Repeats (fun _ y => some y) x :=
  ⟨[], by simp, fun _ y hfollows _ => ⟨y, rfl, hfollows⟩⟩

theorem trans (h : x.Repeats again x') (h' : x'.Repeats further x'') :
    x.Repeats (fun replay y => again replay y >>= further replay) x'' := by
  obtain ⟨dice, hdice, hagain⟩ := h
  obtain ⟨more, hmore, hfurther⟩ := h'
  refine ⟨dice ++ more, by rw [hmore, hdice, List.append_assoc], ?_⟩
  intro replay y hfollows hholds
  rw [Replay.holds_append_iff] at hholds
  obtain ⟨y', hy', hfollows'⟩ := hagain replay y hfollows hholds.1
  -- The session that follows has moved on by one position for each die.
  have hseed : y'.seed = y.seed + dice.length := by
    rw [hfollows'.seed, hfollows.seed, hdice, List.length_append]
    push_cast
    rfl
  obtain ⟨y'', hy'', hfollows''⟩ := hfurther replay y' hfollows' (by rw [hseed]; exact hholds.2)
  exact ⟨y'', Option.bind_eq_some_iff.2 ⟨y', hy', hy''⟩, hfollows''⟩

end Repeats

/-- A call that is reproducible repeats what it did. -/
theorem call?_repeats {m : Source → Roll Node} (hm : Roll.Reproducible m) {source : Source}
    (hsource : source.Bounded) {x x' : Session} {now : Timestamp}
    (h : x.call? now (m source) = some x') (later : Session → Timestamp) :
    x.Repeats (fun replay y => y.call? (later y) (m replay.source)) x' := by
  obtain ⟨tree, s, hrun, rfl⟩ := call?_eq_some_iff.1 h
  obtain ⟨bodies, hlogs, hagain⟩ := hm source hsource hrun
  have hstream : s.log.stream = x.log.stream ++ EventBody.rollsOf bodies := hlogs.stream
  refine ⟨EventBody.rollsOf bodies, hstream, ?_⟩
  intro replay y hfollows hholds
  obtain ⟨t, ht, hredoes⟩ := hagain replay (.start (later y) y.seed y.log) hholds
  obtain ⟨asked, hasked, hserved⟩ := hredoes.asked
  refine ⟨_, call?_eq_some_iff.2 ⟨tree, t, ht, rfl⟩, ?_, ?_, ?_, ?_⟩
  · change y.trees ++ [tree] = x.trees ++ [tree]
    rw [hfollows.trees]
  · change t.seed = s.log.stream.length
    rw [hredoes.seed, hstream, List.length_append]
    change y.seed + _ = _
    rw [hfollows.seed]
    push_cast
    rfl
  · intro stamp
    exact hlogs.restamped_eq hredoes.toLogs (hfollows.log stamp)
  · intro q hq
    rcases List.mem_append.1 hq with hq | hq
    · exact hfollows.served q hq
    · refine hserved q ?_
      rw [hasked] at hq
      simpa [RollState.start] using hq

end Session

namespace Roller
open Session (Repeats)
variable {r : Roller} {source : Source} {context : Context} {clock : Nat → Timestamp}

theorem rerollNewest?_repeats (hsource : source.Bounded) {x x' : Session} {path : IndexPath}
    (h : (r.drawingFrom source).rerollNewest? context clock x path = some x')
    (later : Nat → Timestamp) :
    x.Repeats (fun replay y =>
      (r.drawingFrom replay.source).rerollNewest? context later y path) x' := by
  unfold rerollNewest? at h
  cases htree : x.trees.getLast? with
  | none =>
    rw [htree] at h
    cases h
  | some tree =>
    rw [htree] at h
    rcases r.reroll_reproducible path tree context with ⟨fault, hfault⟩ | ⟨roll, hroll, hok⟩
    · simp only [hfault] at h
      cases h
    · simp only [hok] at h
      obtain ⟨dice, hdice, hagain⟩ :=
        Session.call?_repeats hroll hsource h fun y => later y.trees.length
      refine ⟨dice, hdice, ?_⟩
      intro replay y hfollows hholds
      obtain ⟨y', hy', hfollows'⟩ := hagain replay y hfollows hholds
      refine ⟨y', ?_, hfollows'⟩
      change (r.drawingFrom replay.source).rerollNewest? context later y path = some y'
      unfold rerollNewest?
      rw [hfollows.trees, htree]
      simp only [hok]
      rw [← hfollows.trees]
      exact hy'

theorem rerolls_repeat (hsource : source.Bounded) (later : Nat → Timestamp)
    (paths : List IndexPath) {x x' : Session}
    (h : paths.foldlM ((r.drawingFrom source).rerollNewest? context clock) x = some x') :
    x.Repeats (fun replay y =>
      paths.foldlM ((r.drawingFrom replay.source).rerollNewest? context later) y) x' := by
  induction paths generalizing x with
  | nil =>
    obtain rfl : x = x' := Option.some.inj h
    exact .refl x
  | cons path rest ih =>
    rw [List.foldlM_cons] at h
    obtain ⟨mid, hpath, hrest⟩ := Option.bind_eq_some_iff.1 h
    simp only [List.foldlM_cons]
    exact (rerollNewest?_repeats hsource hpath later).trans (ih hrest)

/-- A session is repeated from its start on. -/
theorem session?_repeats (hsource : source.Bounded) {ref : Reference} {seed : Int}
    {paths : List IndexPath} {x : Session}
    (h : (r.drawingFrom source).session? context ref clock seed paths = some x)
    (later : Nat → Timestamp) :
    (Session.start (clock 0) seed).Repeats (fun replay y => do
      let y ← y.call? (later 0) ((r.drawingFrom replay.source).resolve "/" context ref)
      paths.foldlM ((r.drawingFrom replay.source).rerollNewest? context later) y) x := by
  obtain ⟨mid, hfirst, hrest⟩ := Option.bind_eq_some_iff.1 h
  have hcall := Session.call?_repeats (r.resolve_reproducible "/" context ref) hsource hfirst
    fun _ => later 0
  exact hcall.trans (rerolls_repeat hsource later paths hrest)

/-- A session that is played back from its saved log is the same session: every call comes to the
same tree, no draw overruns the record, the record is used up exactly, and the log says the same
apart from the time. -/
theorem session_replayed (registry : Registry) (maxDepth : Int) (context : Context)
    (ref : Reference) (clock later : Nat → Timestamp) (seed : Int) (paths : List IndexPath)
    (first : Session)
    (h : (Roller.mk registry SplitMix.source maxDepth).session? context ref clock seed paths =
      some first) :
    ∃ saved second, SavedReplay.ofLog first.log.saved.toDocument = .ok saved ∧
      (Roller.mk registry saved.replay.source maxDepth).session? context ref later 0 paths =
        some second ∧
      second.trees = first.trees ∧
      (saved.replay.noteAll second.requests).overruns = 0 ∧
      second.seed = first.log.stream.length ∧
      ∀ stamp, second.log.restamped stamp = first.log.restamped stamp := by
  have hsaved := SavedReplay.ofLog_toDocument first.log
  obtain ⟨own, hreplay⟩ := SavedReplay.replay_ofLog hsaved
  obtain ⟨dice, hdice, hagain⟩ := session?_repeats (r := ⟨registry, SplitMix.source, maxDepth⟩)
    SplitMix.source_bounded h later
  -- The first log started without dice, so the replay holds exactly those of the session.
  have hall : first.log.stream = dice := hdice
  have hstart :=
    Session.start_follows (.start own first.log.stream.toArray) (clock 0) (later 0) seed
  obtain ⟨second, hsecond, hfollows⟩ := hagain _ _ hstart (by
    rw [hall]
    exact Replay.start_holds_all own dice)
  refine ⟨_, second, hsaved, ?_, hfollows.trees, ?_, hfollows.seed, hfollows.log⟩
  · rw [hreplay]
    exact hsecond
  · rw [hreplay, Replay.overruns_noteAll hfollows.served]
    rfl

/-- Three rows of a hoard, then one of them again and the gem in another. -/
theorem hoard_session_replayed :
    ∃ first saved second,
      (Roller.mk .hoard SplitMix.source 3).session? .root .hoard (fun _ => default) 7
        [[1], [0, 0]] = some first ∧
      SavedReplay.ofLog first.log.saved.toDocument = .ok saved ∧
      (Roller.mk .hoard saved.replay.source 3).session? .root .hoard (fun _ => default) 0
        [[1], [0, 0]] = some second ∧
      second.trees = first.trees ∧ (saved.replay.noteAll second.requests).overruns = 0 := by
  have hsome : ((Roller.mk .hoard SplitMix.source 3).session? .root .hoard (fun _ => default) 7
      [[1], [0, 0]]).isSome := by decide +kernel
  obtain ⟨first, hfirst⟩ := Option.isSome_iff_exists.1 hsome
  obtain ⟨saved, second, hsaved, hsecond, htrees, hoverruns, _⟩ :=
    session_replayed .hoard 3 .root .hoard (fun _ => default) (fun _ => default) 7 [[1], [0, 0]]
      first hfirst
  exact ⟨first, saved, second, hfirst, hsaved, hsecond, htrees, hoverruns⟩

end Roller
end RandomTables
