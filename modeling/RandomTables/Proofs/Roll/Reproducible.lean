import RandomTables.Proofs.Draw.Recorded
import RandomTables.Proofs.Roll.Logs

/-!
# Computations that a replay reproduces

A computation that draws from a source is reproducible if every success of it can be had again from
a replay of the dice it logged: with the same result, the same events, one position for each die,
and no overrun. That a draw is logged exactly once, and in order, is what makes the difference;
putting reproducible computations together keeps it, so it is proved for groups of dice only.
-/
namespace RandomTables

namespace RollState

/-- From `t` on, exactly these events are logged up to `t'` and all their dice come from a replay,
which is asked for nothing else. -/
structure Redoes (t : RollState) (replay : Replay) (bodies : List EventBody) (t' : RollState) :
    Prop extends t.Logs bodies t' where
  seed : t'.seed = t.seed + (EventBody.rollsOf bodies).length
  asked : ∃ asked : List Request, t'.requests.toList = t.requests.toList ++ asked ∧
    ∀ q ∈ asked, (replay.served? q).isSome

namespace Redoes
variable {replay : Replay} {t u v : RollState} {bodies more : List EventBody}

theorem refl (replay : Replay) (t : RollState) : t.Redoes replay [] t :=
  ⟨Logs.refl t, by simp, [], by simp, by simp⟩

theorem trans (h : t.Redoes replay bodies u) (h' : u.Redoes replay more v) :
    t.Redoes replay (bodies ++ more) v := by
  obtain ⟨first, hfirst, hserved⟩ := h.asked
  obtain ⟨second, hsecond, hserved'⟩ := h'.asked
  refine ⟨h.toLogs.trans h'.toLogs, ?_, first ++ second, ?_, ?_⟩
  · rw [h'.seed, h.seed, EventBody.rollsOf_append, List.length_append]
    omega
  · rw [hsecond, hfirst, List.append_assoc]
  · intro q hq
    rcases List.mem_append.1 hq with hq | hq
    · exact hserved q hq
    · exact hserved' q hq

end Redoes
end RollState

namespace Roll
variable {α β : Type}

/-- Every success with a source that keeps to the range can be had again from a replay that holds
the dice it logged. -/
def Reproducible (m : Source → Roll α) : Prop :=
  ∀ source : Source, source.Bounded → ∀ {s : RollState} {a : α} {s' : RollState},
    (m source).runFrom s = (.ok a, s') →
      ∃ bodies, s.Logs bodies s' ∧
        ∀ (replay : Replay) (t : RollState), replay.Holds t.seed (EventBody.rollsOf bodies) →
          ∃ t', (m replay.source).runFrom t = (.ok a, t') ∧ t.Redoes replay bodies t'

namespace Reproducible

theorem pure (a : α) : Reproducible fun _ => (Pure.pure a : Roll α) := by
  intro source _ s b s' h
  obtain ⟨rfl, rfl⟩ := runFrom_pure_eq_ok_iff.1 h
  refine ⟨[], .refl s, ?_⟩
  intro replay t _
  exact ⟨t, runFrom_pure a t, .refl replay t⟩

theorem bind {m : Source → Roll α} {f : Source → α → Roll β} (hm : Reproducible m)
    (hf : ∀ a, Reproducible fun source => f source a) :
    Reproducible fun source => m source >>= f source := by
  intro source hsource s b s' h
  obtain ⟨a, mid, h₁, h₂⟩ := runFrom_bind_eq_ok_iff.1 h
  obtain ⟨bodies, hlogs, hagain⟩ := hm source hsource h₁
  obtain ⟨more, hlogs', hagain'⟩ := hf a source hsource h₂
  refine ⟨bodies ++ more, hlogs.trans hlogs', ?_⟩
  intro replay t hholds
  rw [EventBody.rollsOf_append, Replay.holds_append_iff] at hholds
  obtain ⟨u, hu, hredoes⟩ := hagain replay t hholds.1
  -- The second part starts where the dice of the first one end.
  obtain ⟨v, hv, hredoes'⟩ := hagain' replay u (by rw [hredoes.seed]; exact hholds.2)
  refine ⟨v, ?_, hredoes.trans hredoes'⟩
  rw [runFrom_bind_of_ok hu, hv]

theorem logEvent (body : EventBody) (hbody : body.rolls = []) :
    Reproducible fun _ => Roll.logEvent body := by
  intro source _ s a s' h
  have hdice : EventBody.rollsOf [body] = [] := by simp [hbody]
  rw [runFrom_logEvent] at h
  obtain ⟨rfl, rfl⟩ : () = a ∧ { s with log := s.log.add s.now body } = s' := by simpa using h
  refine ⟨[body], .logEvent s body, ?_⟩
  intro replay t _
  exact ⟨_, runFrom_logEvent body t, .logEvent t body, by simp [hdice], [], by simp, by simp⟩

end Reproducible

/-! ## Dice -/

/-- Dice that are drawn one after another keep to the range. -/
theorem drawDice_values {source : Source} (hsource : source.Bounded) {sides : Int} {n : Nat}
    {s s' : RollState} {values : List Int}
    (h : (drawDice source sides n).runFrom s = (.ok values, s')) :
    values.length = n ∧ ∀ value ∈ values, 1 ≤ value ∧ value ≤ sides := by
  induction n generalizing s values with
  | zero =>
    obtain ⟨rfl, rfl⟩ := runFrom_pure_eq_ok_iff.1 h
    exact ⟨rfl, by simp⟩
  | succ n ih =>
    obtain ⟨value, mid, hdraw, h⟩ := runFrom_bind_eq_ok_iff.1 h
    obtain ⟨rest, last, hrest, h⟩ := runFrom_bind_eq_ok_iff.1 h
    obtain ⟨rfl, rfl⟩ := runFrom_pure_eq_ok_iff.1 h
    have hle := le_of_runFrom_draw hdraw
    rw [runFrom_draw hle] at hdraw
    obtain ⟨rfl, rfl⟩ : _ = value ∧ _ = mid := by simpa using hdraw
    obtain ⟨hlength, hrange⟩ := ih hrest
    refine ⟨by simp [hlength], ?_⟩
    intro v hv
    rcases List.mem_cons.1 hv with rfl | hv
    · exact Span.holds_iff.1 (hsource s.seed ⟨1, sides, hle⟩)
    · exact hrange v hv

/-- A replay that holds dice in the range draws them again. -/
theorem drawDice_redo {replay : Replay} {sides : Int} {values : List Int} {t : RollState}
    (hrange : ∀ value ∈ values, 1 ≤ value ∧ value ≤ sides) (hholds : replay.Holds t.seed values) :
    ∃ t', (drawDice replay.source sides values.length).runFrom t = (.ok values, t') ∧
      t.Logs [] t' ∧ t'.seed = t.seed + values.length ∧
      ∃ asked : List Request, t'.requests.toList = t.requests.toList ++ asked ∧
        ∀ q ∈ asked, (replay.served? q).isSome := by
  induction values generalizing t with
  | nil => exact ⟨t, rfl, .refl t, by simp, [], by simp, by simp⟩
  | cons value values ih =>
    obtain ⟨hhere, hrest⟩ := Replay.holds_cons_iff.1 hholds
    obtain ⟨hlow, hhigh⟩ := hrange value (List.mem_cons_self ..)
    have hle : 1 ≤ sides := by omega
    have hdrawn : replay.source.draw t.seed ⟨1, sides, hle⟩ = (value, t.seed + 1) :=
      Replay.draw_of_recorded hhere hlow hhigh
    have hdraw : (draw replay.source 1 sides).runFrom t = _ := runFrom_draw hle t
    rw [hdrawn] at hdraw
    obtain ⟨t', ht', hlogs, hseed, asked, hasked, hserved⟩ :=
      ih (t := { t with seed := t.seed + 1, requests := t.requests.push ⟨t.seed, 1, sides⟩ })
        (fun v hv => hrange v (List.mem_cons_of_mem _ hv)) hrest
    refine ⟨t', ?_, (draw_logs hdraw).trans hlogs, ?_, ⟨t.seed, 1, sides⟩ :: asked, ?_, ?_⟩
    · rw [List.length_cons, drawDice, runFrom_bind_of_ok hdraw, runFrom_bind_of_ok ht']
      rfl
    · rw [hseed, List.length_cons]
      push_cast
      omega
    · simp [hasked]
    · intro q hq
      rcases List.mem_cons.1 hq with rfl | hq
      · simp [Replay.served?_of_recorded hhere hlow hhigh]
      · exact hserved q hq

theorem Reproducible.group (count sides : Int) (reason : Text) :
    Reproducible fun source => Roll.group source count sides reason := by
  intro source hsource s g s' h
  obtain ⟨hsides, values, mid, hvalues, rfl, rfl⟩ := group_eq_ok_iff.1 h
  obtain ⟨hlength, hrange⟩ := drawDice_values hsource hvalues
  have hlogs := drawDice_logs hvalues
  refine ⟨[(DiceGroup.ofRolls count sides values reason).event], hlogs.keep _, ?_⟩
  intro replay t hholds
  rw [EventBody.rollsOf_singleton] at hholds
  obtain ⟨t', ht', hlogs', hseed, asked⟩ := drawDice_redo hrange hholds
  rw [hlength] at ht'
  refine ⟨_, group_eq_ok_iff.2 ⟨hsides, values, t', ht', rfl, rfl⟩, hlogs'.keep _, ?_, asked⟩
  rw [EventBody.rollsOf_singleton]
  exact hseed

/-- What is rolled in groups is reproducible. -/
theorem InGroups.reproducible {m : Source → Roll α} (h : InGroups m) : Reproducible m := by
  induction h with
  | pure a => exact .pure a
  | group count sides reason => exact .group count sides reason
  | logEvent body hbody => exact .logEvent body hbody
  | bind _ _ first others => exact first.bind others

end Roll
end RandomTables
