import RandomTables.Proofs.Roll.Basic
import RandomTables.Proofs.Roll.InGroups

/-!
# Computations that read the seed only

A computation that rolls dice writes to the log, keeps the groups it has rolled and notes what it
asked for, but it never reads any of that. Its result and the seed it ends with come from the seed
it starts with, so a success can be had again from every other state with this seed.
-/
namespace RandomTables

namespace Roll
variable {α β : Type}

/-- Every success can be had again from each state with the same seed, and ends with the same
seed. -/
def Seeded (m : Roll α) : Prop :=
  ∀ (s s' t : RollState) (a : α), m.runFrom s = (.ok a, s') → t.seed = s.seed →
    ∃ t', m.runFrom t = (.ok a, t') ∧ t'.seed = s'.seed

namespace Seeded

theorem pure (a : α) : Seeded (Pure.pure a) := by
  intro s s' t b h ht
  obtain ⟨rfl, rfl⟩ := runFrom_pure_eq_ok_iff.1 h
  exact ⟨t, runFrom_pure a t, ht⟩

theorem bind {m : Roll α} {f : α → Roll β} (hm : Seeded m) (hf : ∀ a, Seeded (f a)) :
    Seeded (m >>= f) := by
  intro s s' t b h ht
  obtain ⟨a, mid, h₁, h₂⟩ := runFrom_bind_eq_ok_iff.1 h
  obtain ⟨u, hu, hseed⟩ := hm _ _ t _ h₁ ht
  obtain ⟨t', ht', hseed'⟩ := hf a _ _ u _ h₂ hseed
  exact ⟨t', (runFrom_bind_of_ok hu).trans ht', hseed'⟩

theorem logEvent (body : EventBody) : Seeded (Roll.logEvent body) := by
  intro s s' t a h ht
  obtain ⟨_, rfl⟩ := Prod.mk.inj h
  exact ⟨_, runFrom_logEvent body t, ht⟩

end Seeded

theorem draw_seeded (source : Source) (low high : Int) : Seeded (draw source low high) := by
  intro s s' t value h ht
  have hle := le_of_runFrom_draw h
  rw [runFrom_draw hle, ← ht] at h
  obtain ⟨rfl, rfl⟩ : _ = value ∧ _ = s' := by simpa using h
  exact ⟨_, runFrom_draw hle t, rfl⟩

theorem drawDice_seeded (source : Source) (sides : Int) (n : Nat) :
    Seeded (drawDice source sides n) := by
  induction n with
  | zero => exact .pure []
  | succ n ih =>
    exact (draw_seeded source 1 sides).bind fun value => ih.bind fun values => .pure _

theorem group_seeded (source : Source) (count sides : Int) (reason : Text) :
    Seeded (group source count sides reason) := by
  intro s s' t g h ht
  obtain ⟨hsides, values, mid, hvalues, rfl, rfl⟩ := group_eq_ok_iff.1 h
  obtain ⟨u, hu, hseed⟩ := drawDice_seeded source sides count.toNat _ _ t _ hvalues ht
  exact ⟨_, group_eq_ok_iff.2 ⟨hsides, values, u, hu, rfl, rfl⟩, hseed⟩

/-- What is rolled in groups reads the seed only. -/
theorem InGroups.seeded {m : Source → Roll α} (h : InGroups m) (source : Source) :
    Seeded (m source) := by
  induction h with
  | pure a => exact .pure a
  | group count sides reason => exact group_seeded source count sides reason
  | logEvent body _ => exact .logEvent body
  | bind _ _ first others => exact first.bind others

end Roll

end RandomTables
