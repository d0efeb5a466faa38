import RandomTables.Proofs.Draw.Consecutive
import RandomTables.Proofs.Roll.Logs

/-!
# What a computation draws

A computation that draws in groups asks the source for one draw after another, and hands the seed
from each to the next. The values that it draws are the dice of the events that it logs, in the same
order: no draw goes unrecorded, and no die is recorded that was not drawn.
-/
namespace RandomTables

def Request.bounds (q : Request) : Int × Int := (q.low, q.high)

namespace RollState

/-- From `s` on, up to `s'`, the source is asked for exactly these draws and comes to these
values. -/
structure Draws (source : Source) (s : RollState) (asked : List Request) (values : List Int)
    (s' : RollState) : Prop where
  requests : s'.requests.toList = s.requests.toList ++ asked
  draws : source.Draws s.seed asked values s'.seed

namespace Draws
variable {source : Source} {s t u : RollState} {asked more : List Request}
  {values others : List Int}

theorem refl (source : Source) (s : RollState) : s.Draws source [] [] s :=
  ⟨(List.append_nil _).symm, .nil s.seed⟩

theorem trans (h : s.Draws source asked values t) (h' : t.Draws source more others u) :
    s.Draws source (asked ++ more) (values ++ others) u :=
  ⟨by rw [h'.requests, h.requests, List.append_assoc], h.draws.append h'.draws⟩

end Draws
end RollState

namespace Roll

theorem draw_draws {source : Source} {low high value : Int} {s s' : RollState}
    (h : (draw source low high).runFrom s = (.ok value, s')) :
    s.Draws source [⟨s.seed, low, high⟩] [value] s' := by
  have hle := le_of_runFrom_draw h
  rw [runFrom_draw hle] at h
  obtain ⟨rfl, rfl⟩ : _ = value ∧ _ = s' := by simpa using h
  exact ⟨Array.toList_push, .cons ⟨low, high, hle⟩ (.nil _)⟩

/-- Dice are drawn one after another, each from one to the number of sides. -/
theorem drawDice_draws {source : Source} {sides : Int} {n : Nat} {s s' : RollState}
    {values : List Int} (h : (drawDice source sides n).runFrom s = (.ok values, s')) :
    ∃ asked, s.Draws source asked values s' ∧
      asked.map Request.bounds = List.replicate n (1, sides) := by
  induction n generalizing s values with
  | zero =>
    obtain ⟨rfl, rfl⟩ := runFrom_pure_eq_ok_iff.1 h
    exact ⟨[], .refl source s, rfl⟩
  | succ n ih =>
    obtain ⟨value, mid, hdraw, h⟩ := runFrom_bind_eq_ok_iff.1 h
    obtain ⟨rest, last, hrest, h⟩ := runFrom_bind_eq_ok_iff.1 h
    obtain ⟨rfl, rfl⟩ := runFrom_pure_eq_ok_iff.1 h
    obtain ⟨asked, hasked, hbounds⟩ := ih hrest
    refine ⟨⟨s.seed, 1, sides⟩ :: asked, (draw_draws hdraw).trans hasked, ?_⟩
    rw [List.map_cons, hbounds]
    rfl

/-- Where dice are rolled in groups, the values that are drawn are the dice that are logged. -/
theorem InGroups.draws {α : Type} {m : Source → Roll α} (h : InGroups m) {source : Source}
    {s s' : RollState} {a : α} (hrun : (m source).runFrom s = (.ok a, s')) :
    ∃ bodies asked, s.Logs bodies s' ∧ s.Draws source asked (EventBody.rollsOf bodies) s' := by
  induction h generalizing s s' with
  | pure a =>
    obtain ⟨_, rfl⟩ := runFrom_pure_eq_ok_iff.1 hrun
    exact ⟨[], [], .refl s, .refl source s⟩
  | group count sides reason =>
    obtain ⟨_, values, t, hvalues, rfl, rfl⟩ := group_eq_ok_iff.1 hrun
    obtain ⟨asked, hasked, -⟩ := drawDice_draws hvalues
    refine ⟨_, asked, (drawDice_logs hvalues).keep _, hasked.requests, ?_⟩
    rw [EventBody.rollsOf_singleton]
    exact hasked.draws
  | logEvent body hbody =>
    obtain ⟨_, rfl⟩ := Prod.mk.inj hrun
    refine ⟨[body], [], .logEvent s body, (List.append_nil _).symm, ?_⟩
    rw [EventBody.rollsOf_singleton, hbody]
    exact .nil s.seed
  | bind _ _ first others =>
    obtain ⟨b, t, hfirst, hothers⟩ := runFrom_bind_eq_ok_iff.1 hrun
    obtain ⟨bodies, asked, hlogs, hdraws⟩ := first hfirst
    obtain ⟨bodies', asked', hlogs', hdraws'⟩ := others b hothers
    refine ⟨bodies ++ bodies', asked ++ asked', hlogs.trans hlogs', ?_⟩
    rw [EventBody.rollsOf_append]
    exact hdraws.trans hdraws'

end Roll
end RandomTables
