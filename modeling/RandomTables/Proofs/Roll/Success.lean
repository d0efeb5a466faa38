import RandomTables.Proofs.Dice.Sides
import RandomTables.Proofs.Roll.Basic

/-!
# Computations that succeed

A computation that rolls dice fails for nothing but dice without sides, whatever the source is. That
it succeeds from every state is proved along the way it is put together, together with what can be
said of its result.
-/
namespace RandomTables

namespace Roll
variable {α β : Type} {P : α → Prop} {Q : β → Prop}

/-- From every state the computation succeeds, with a result of this kind. -/
def Succeeds (m : Roll α) (P : α → Prop) : Prop :=
  ∀ s : RollState, ∃ a s', m.runFrom s = (.ok a, s') ∧ P a

namespace Succeeds

theorem pure {a : α} (h : P a) : Succeeds (Pure.pure a) P := fun s => ⟨a, s, runFrom_pure a s, h⟩

theorem bind {m : Roll α} {f : α → Roll β} (hm : Succeeds m P)
    (hf : ∀ a, P a → Succeeds (f a) Q) : Succeeds (m >>= f) Q := by
  intro s
  obtain ⟨a, t, ht, ha⟩ := hm s
  obtain ⟨b, s', hs', hb⟩ := hf a ha t
  exact ⟨b, s', (runFrom_bind_of_ok ht).trans hs', hb⟩

theorem map {m : Roll α} (f : α → β) (hm : Succeeds m P) (hf : ∀ a, P a → Q (f a)) :
    Succeeds (f <$> m) Q := by
  rw [← bind_pure_comp]
  exact hm.bind fun a ha => .pure (hf a ha)

/-- What holds of the result of every success is said of the result besides. -/
theorem of_run {m : Roll α} (hm : Succeeds m fun _ => True)
    (h : ∀ s a s', m.runFrom s = (.ok a, s') → P a) : Succeeds m P := by
  intro s
  obtain ⟨a, s', hrun, -⟩ := hm s
  exact ⟨a, s', hrun, h s a s' hrun⟩

theorem logEvent (body : EventBody) : Succeeds (Roll.logEvent body) fun _ => True :=
  fun s => ⟨(), _, runFrom_logEvent body s, trivial⟩

end Succeeds

theorem draw_succeeds (source : Source) {low high : Int} (h : low ≤ high) :
    Succeeds (draw source low high) fun _ => True :=
  fun s => ⟨_, _, runFrom_draw h s, trivial⟩

theorem drawDice_succeeds (source : Source) {sides : Int} (h : 0 < sides) (n : Nat) :
    Succeeds (drawDice source sides n) fun _ => True := by
  induction n with
  | zero => exact .pure trivial
  | succ n ih =>
    refine (draw_succeeds source (by omega)).bind fun value _ => ?_
    exact ih.bind fun values _ => .pure trivial

theorem group_succeeds (source : Source) (count : Int) {sides : Int} (h : 0 < sides)
    (reason : Text) : Succeeds (group source count sides reason) fun _ => True := by
  intro s
  obtain ⟨values, t, ht, _⟩ := drawDice_succeeds source h count.toNat s
  exact ⟨_, _, group_eq_ok_iff.2 ⟨h, values, t, ht, rfl, rfl⟩, trivial⟩

end Roll

namespace Dice

/-- An expression can be rolled if its dice have sides. -/
theorem Expr.evaluate_succeeds (source : Source) (reason : Text) {e : Expr} (h : e.HasSides) :
    Roll.Succeeds (e.evaluate source reason) fun _ => True := by
  induction e with
  | constant value => exact .pure trivial
  | dice count sides negative =>
    have hsides : (0 : Int) < sides := by exact_mod_cast h
    exact (Roll.group_succeeds source count hsides reason).bind fun rolled _ => .pure trivial
  | join op left right hleft hright =>
    obtain ⟨hl, hr⟩ := Expr.hasSides_join_iff.1 h
    refine (hleft hl).bind fun first _ => ?_
    exact (hright hr).bind fun second _ => .pure trivial

end Dice
end RandomTables
