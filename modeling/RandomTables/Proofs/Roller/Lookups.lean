import RandomTables.Proofs.Outcome.Lookups
import RandomTables.Proofs.Roll.Logs
import RandomTables.Proofs.Roller.Rolled

/-!
# What is looked up in a roll

Rolling a reference logs the dice that it rolls and the rows that it looks up. The look-ups are the
rows of the outcome from the bottom up, each with the depth of the context that its table was rolled
in; so they can be read off the outcome alone (`lookups_of_resolve`).
-/
namespace RandomTables

namespace RollState

/-- From `s` on, exactly these rows are looked up, up to `s'`, and nothing else is logged but
dice. -/
def LooksUp (s : RollState) (lookups : List EventBody) (s' : RollState) : Prop :=
  ∃ bodies, s.Logs bodies s' ∧ bodies.filter (fun body => body.kind = .lookup) = lookups ∧
    ∀ body ∈ bodies, body.kind = .lookup ∨ body.kind = .roll

namespace LooksUp
variable {s t u : RollState} {lookups more : List EventBody}

theorem refl (s : RollState) : s.LooksUp [] s := ⟨[], .refl s, rfl, nofun⟩

theorem trans (h : s.LooksUp lookups t) (h' : t.LooksUp more u) : s.LooksUp (lookups ++ more) u := by
  obtain ⟨bodies, hlogs, rfl, hkind⟩ := h
  obtain ⟨bodies', hlogs', rfl, hkind'⟩ := h'
  refine ⟨bodies ++ bodies', hlogs.trans hlogs', List.filter_append .., ?_⟩
  intro body hbody
  exact (List.mem_append.1 hbody).elim (hkind body) (hkind' body)

/-- One more row is looked up. -/
theorem logEvent {body : EventBody} (h : s.LooksUp lookups t) (hbody : body.kind = .lookup) :
    s.LooksUp (lookups ++ [body]) { t with log := t.log.add t.now body } := by
  refine h.trans ⟨[body], .logEvent t body, ?_, ?_⟩
  · simp [hbody]
  · intro other hother
    obtain rfl := List.mem_singleton.1 hother
    exact .inl hbody

end LooksUp
end RollState

/-- Where only dice are rolled nothing is looked up. -/
theorem Roll.OnlyDice.looksUp {α : Type} {m : Source → Roll α} (h : OnlyDice m) {source : Source}
    {s s' : RollState} {a : α} (hrun : (m source).runFrom s = (.ok a, s')) : s.LooksUp [] s' := by
  obtain ⟨groups, hlogs⟩ := h.logs hrun
  have hkind : ∀ body ∈ groups.map DiceGroup.event, body.kind = .roll := by
    intro body hbody
    obtain ⟨group, _, rfl⟩ := List.mem_map.1 hbody
    rfl
  refine ⟨_, hlogs, ?_, fun body hbody => .inr (hkind body hbody)⟩
  refine List.filter_eq_nil_iff.2 fun body hbody => ?_
  rw [hkind body hbody]
  decide

/-- The look-ups of what a job comes to. -/
def Job.lookups : (j : Job) → j.Yield → List EventBody
  | reference _ context _, node => node.lookups context.depth
  | children _ context _ _, nodes => nodes.flatMap (Node.lookups (context.depth + 1))
  | siblings _ context _, nodes => nodes.flatMap (Node.lookups context.depth)
  | row b _, found => (found.map (RowRoll.lookups b.context.depth b.table)).getD []
  | rows b _ _, found => found.flatMap (RowRoll.lookups b.context.depth b.table)
  | extra context _ _, found => found.2.flatMap (Node.lookups (context.depth + 1))
  | repeats context _ _, found => found.flatten.flatMap (Node.lookups (context.depth + 1))

/-- Whatever is carried out looks up the rows of what it comes to. -/
theorem Run.looksUp {r : Roller} {j : Job} {s s' : RollState} {a : j.Yield} (run : Run r j s a s') :
    s.LooksUp (j.lookups a) s' := by
  induction run with
  | leaf hget =>
    rw [Job.lookups, Roller.leafOf, Node.lookups_leaf]
    exact .refl _
  | table hget _ _ _ inputs rows extra =>
    rw [Job.lookups, Node.lookups_table]
    exact (inputs.trans rows).trans extra
  | bundle hget _ repeats =>
    rw [Job.lookups, Node.lookups_bundle]
    exact repeats
  | @beyond directory context _ refs _ hdepth =>
    have hnone : (refs.map (r.leafOf directory)).flatMap (Node.lookups (context.depth + 1)) = [] := by
      simp [Roller.leafOf]
    rw [Job.lookups, hnone]
    exact .refl _
  | @within _ context stored _ _ _ _ hdepth _ siblings =>
    have hchild : (context.child stored).depth = context.depth + 1 := context.child_depth stored
    rw [Job.lookups, hchild] at siblings
    exact siblings
  | nil | noRows | noExtra _ | noRepeats => exact .refl _
  | cons _ _ first others | more _ _ first others => exact first.trans others
  | gaveUp hfresh => exact (Batch.rollFresh_onlyDice ..).looksUp hfresh
  | missing hfresh hfind =>
    have hdice := (Batch.rollFresh_onlyDice ..).looksUp hfresh
    exact hdice.logEvent rfl
  | found hfresh hfind hresolve _ nested =>
    -- The row is looked up last, after the references in it.
    have hdice := (Batch.rollFresh_onlyDice ..).looksUp hfresh
    have htext := (Template.resolve_onlyDice ..).looksUp hresolve
    exact ((hdice.trans htext).trans nested).logEvent rfl
  | stopped _ first => exact first
  | extra hextra hresolve _ nodes =>
    exact ((Template.resolve_onlyDice ..).looksUp hresolve).trans nodes
  | again _ _ first others =>
    rw [Job.lookups, List.flatten_cons, List.flatMap_append]
    exact first.trans others

namespace Roller

/-- What rolling a reference looks up is the outcome from the bottom up: the inputs of a table, then
for each of its rows the references in it and the row itself, then its extra text, and the repeats
of a bundle one after another. Nothing else is logged but dice. Each row is recorded with the path
and the title of its table, its total and text, and the depth of the context that its table was
rolled in. -/
theorem lookups_of_resolve (r : Roller) (directory : Text) (context : Context) (ref : Reference)
    (s s' : RollState) (node : Node)
    (h : (r.resolve directory context ref).runFrom s = (.ok node, s')) :
    s.LooksUp (node.lookups context.depth) s' ∧
      Nonempty (Run r (.reference directory context ref) s node s') ∧
      ∀ run : Run r (.reference directory context ref) s node s',
        ∀ body ∈ node.lookups context.depth, ∃ level roll row,
          node.Below level (.table roll) ∧ row ∈ roll.rows ∧
          run.RolledAt (context.depth + level) (.table roll) ∧
          body = roll.table.lookupOf (context.depth + level) row := by
  have htraced : Nonempty (Run r (.reference directory context ref) s node s') :=
    succeeds_iff_run.1 h
  refine ⟨htraced.elim Run.looksUp, htraced, ?_⟩
  intro run body hbody
  obtain ⟨level, roll, row, hbelow, hrow, heq⟩ := Node.row_of_mem_lookups hbody
  have hrolled := run.rolledAt_of_below (List.mem_singleton_self node) hbelow rfl
  exact ⟨level, roll, row, hbelow, hrow, hrolled, heq⟩

end Roller

/-- A bundle of a chest and of something that is not there. The chest has an input, a reference in
its row, and another one in its extra text. -/
def Registry.vault : Registry :=
  .ofDefinitions "/" [
    .bundle ⟨"/vault", "Vault", [.toPath "/chest", .toPath "/ghost"]⟩,
    .table ⟨"/chest", "Chest", .dice 1 1 false,
      [⟨[.plain "lid of ", .reference (.toPath "/gem") none], .single 1, "1|lid"⟩],
      ⟨[("key", .toPath "/key")]⟩, some [.reference (.toPath "/gem") none]⟩,
    .table ⟨"/key", "Key", .dice 1 1 false,
      [⟨[.plain "a key"], .single 1, "1|a key"⟩], .empty, none⟩,
    .table ⟨"/gem", "Gem", .dice 1 1 false,
      [⟨[.plain "an opal"], .single 1, "1|an opal"⟩], .empty, none⟩]

namespace Roller

/-- In the vault the key is looked up first, then the gem in the chest, the chest, and the gem below
it. -/
theorem vault_lookups :
    ∃ node s',
      ((Roller.mk .vault SplitMix.source 3).resolve "/" .root (.toPath "/vault")).runFrom
        (.start default 7 (.empty default)) = (.ok node, s') ∧
      (RollState.start default 7 (.empty default)).LooksUp
        [.lookup "/key" "Key" 1 "a key" 2, .lookup "/gem" "Gem" 1 "an opal" 2,
          .lookup "/chest" "Chest" 1 "lid of an opal" 1, .lookup "/gem" "Gem" 1 "an opal" 2] s' := by
  obtain ⟨node, s', hrun, hlookups⟩ := Roll.exists_ok_of_any
    (m := (Roller.mk .vault SplitMix.source 3).resolve "/" .root (.toPath "/vault"))
    (s := .start default 7 (.empty default))
    (p := fun node => node.lookups 0 =
      [.lookup "/key" "Key" 1 "a key" 2, .lookup "/gem" "Gem" 1 "an opal" 2,
        .lookup "/chest" "Chest" 1 "lid of an opal" 1, .lookup "/gem" "Gem" 1 "an opal" 2])
    (by decide +kernel)
  obtain ⟨hlooksUp, _⟩ := lookups_of_resolve _ _ _ _ _ _ _ hrun
  change RollState.LooksUp _ (node.lookups 0) _ at hlooksUp
  rw [of_decide_eq_true hlookups] at hlooksUp
  exact ⟨node, s', hrun, hlooksUp⟩

end Roller
end RandomTables
