import RandomTables.Dice.Roll

/-!
# Runs of rolling computations

A computation that rolls dice is followed from the state it starts in. Each way of putting
computations together has one equation here, and one statement of when the whole succeeds; nothing
after this module opens the monad again.

The log only ever grows, by events that are stamped with the time of the state. The dice of those
events are what a record of the computation holds.
-/
namespace RandomTables

namespace DiceGroup

def ofRolls (count sides : Int) (rolls : List Int) (reason : Text) : DiceGroup :=
  ⟨Text.integer count ++ "d" ++ Text.integer sides, rolls, rolls.foldr (· + ·) 0, reason⟩

/-- The event that records the group. -/
def event (g : DiceGroup) : EventBody := .roll g.dice g.rolls g.total g.reason

end DiceGroup

/-- The state after a group has been rolled with the dice drawn before. -/
def RollState.keep (s : RollState) (g : DiceGroup) : RollState :=
  { s with groups := s.groups.push g, log := s.log.add s.now g.event }

namespace Roll
variable {α β : Type} {s s' : RollState}

@[simp] theorem runFrom_pure (a : α) (s : RollState) :
    (pure a : Roll α).runFrom s = (.ok a, s) := rfl

/-- A computation that goes on with the result of another one fails where that one fails. -/
theorem runFrom_bind (m : Roll α) (f : α → Roll β) (s : RollState) :
    (m >>= f).runFrom s =
      match m.runFrom s with
      | (.ok a, t) => (f a).runFrom t
      | (.error e, t) => (.error e, t) := by
  simp only [runFrom, ExceptT.run, StateT.run, bind, ExceptT.bind, ExceptT.mk, StateT.bind,
    ExceptT.bindCont]
  cases m s with
  | mk result t => cases result <;> rfl

theorem runFrom_bind_of_ok {m : Roll α} {f : α → Roll β} {a : α} {t : RollState}
    (h : m.runFrom s = (.ok a, t)) : (m >>= f).runFrom s = (f a).runFrom t := by
  rw [runFrom_bind, h]

/-- The two succeed together where the first succeeds and the second does from there. -/
theorem runFrom_bind_eq_ok_iff {m : Roll α} {f : α → Roll β} {b : β} :
    (m >>= f).runFrom s = (.ok b, s') ↔
      ∃ a t, m.runFrom s = (.ok a, t) ∧ (f a).runFrom t = (.ok b, s') := by
  rw [runFrom_bind]
  constructor
  · intro h
    cases hm : m.runFrom s with
    | mk result t =>
      rw [hm] at h
      cases result with
      | ok a => exact ⟨a, t, rfl, h⟩
      | error e => simp at h
  · rintro ⟨a, t, hm, hf⟩
    rw [hm]
    exact hf

/-- Two ways to go on that agree on every result that the computation can have are the same. -/
theorem bind_congr_of_ok {m : Roll α} {f g : α → Roll β}
    (h : ∀ s a t, m.runFrom s = (.ok a, t) → f a = g a) : m >>= f = m >>= g := by
  have hrun : ∀ s, (m >>= f).runFrom s = (m >>= g).runFrom s := by
    intro s
    rw [runFrom_bind, runFrom_bind]
    cases hm : m.runFrom s with
    | mk result t =>
      cases result with
      | ok a => simp only [h s a t hm]
      | error e => rfl
  exact funext hrun

theorem runFrom_pure_eq_ok_iff {a b : α} :
    (pure a : Roll α).runFrom s = (.ok b, s') ↔ a = b ∧ s = s' := by
  simp

theorem runFrom_map_eq_ok_iff {m : Roll α} {f : α → β} {b : β} :
    (f <$> m).runFrom s = (.ok b, s') ↔ ∃ a, m.runFrom s = (.ok a, s') ∧ f a = b := by
  rw [← bind_pure_comp, runFrom_bind_eq_ok_iff]
  constructor
  · rintro ⟨a, t, hm, hf⟩
    obtain ⟨rfl, rfl⟩ := runFrom_pure_eq_ok_iff.1 hf
    exact ⟨a, hm, rfl⟩
  · rintro ⟨a, hm, rfl⟩
    exact ⟨a, s', hm, rfl⟩

@[simp] theorem runFrom_logEvent (body : EventBody) (s : RollState) :
    (logEvent body).runFrom s = (.ok (), { s with log := s.log.add s.now body }) := rfl

/-- A computation that is seen to succeed with a result of some kind has such a result. -/
theorem exists_ok_of_any {m : Roll α} {p : α → Bool} (h : (m.runFrom s).1.toOption.any p) :
    ∃ a s', m.runFrom s = (.ok a, s') ∧ p a := by
  cases hm : m.runFrom s with
  | mk result s' =>
    rw [hm] at h
    cases result with
    | ok a => exact ⟨a, s', rfl, h⟩
    | error e => cases h

/-! ## Dice -/

/-- A draw from a range that holds a number. -/
theorem runFrom_draw {source : Source} {low high : Int} (h : low ≤ high) (s : RollState) :
    (draw source low high).runFrom s =
      (.ok (source.draw s.seed ⟨low, high, h⟩).1,
        { s with
          seed := (source.draw s.seed ⟨low, high, h⟩).2
          requests := s.requests.push ⟨s.seed, low, high⟩ }) := by
  simp only [draw, dif_pos h]
  rfl

theorem le_of_runFrom_draw {source : Source} {low high value : Int} {s s' : RollState}
    (h : (draw source low high).runFrom s = (.ok value, s')) : low ≤ high := by
  by_cases hle : low ≤ high
  · exact hle
  · simp only [draw, dif_neg hle] at h
    cases h

/-- Rolling a group of dice is drawing them and keeping the group. -/
theorem group_eq_ok_iff {source : Source} {count sides : Int} {reason : Text} {g : DiceGroup}
    {s s' : RollState} :
    (group source count sides reason).runFrom s = (.ok g, s') ↔
      0 < sides ∧ ∃ values t, (drawDice source sides count.toNat).runFrom s = (.ok values, t) ∧
        g = .ofRolls count sides values reason ∧ s' = t.keep g := by
  unfold group
  by_cases hsides : sides ≤ 0
  · simp only [if_pos hsides]
    constructor
    · intro h
      cases h
    · intro h
      omega
  · simp only [if_neg hsides]
    rw [runFrom_bind_eq_ok_iff]
    constructor
    · rintro ⟨values, t, hvalues, h⟩
      change (Except.ok (.ofRolls count sides values reason),
        t.keep (.ofRolls count sides values reason)) = (Except.ok g, s') at h
      obtain ⟨rfl, rfl⟩ : DiceGroup.ofRolls count sides values reason = g ∧
          t.keep (.ofRolls count sides values reason) = s' := by
        simpa only [Prod.mk.injEq, Except.ok.injEq] using h
      exact ⟨by omega, values, t, hvalues, rfl, rfl⟩
    · rintro ⟨_, values, t, hvalues, rfl, rfl⟩
      exact ⟨values, t, hvalues, rfl⟩

end Roll
end RandomTables
