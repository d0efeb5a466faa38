import RandomTables.Proofs.Roller.Independent
import RandomTables.Proofs.Roller.Lookups
import RandomTables.Proofs.Roller.Success

/-!
# Rolling a part again, completely or not at all

A call that rolls a part again is refused if the path leads nowhere, or if nothing is registered any
more that the part could be rolled from. That is settled before anything is rolled, so a refused call
leaves the seed, the draws and the log as they are. Every other call goes through where all dice have
sides: there is always a place for the new piece, and the event of the call is the last one that it
logs (`reroll_all_or_nothing`).
-/
namespace RandomTables
open Roll

/-- What the target is rolled from is registered: a table for a row, a bundle for a repeat, and
anything for a node. -/
def Target.IsRegistered (registry : Registry) : Target → Prop
  | node found => ∃ d, registry.get? found.path = some d
  | row parent _ _ => ∃ table, registry.get? parent.table.path = some (.table table)
  | nodes parent _ _ => ∃ bundle, registry.get? parent.bundle.path = some (.bundle bundle)

/-- Why a call that rolls a part again fails: it is refused, or something cannot be rolled. -/
inductive CallFault where
  | refused (fault : RerollFault)
  | roll (fault : RollFault)
  deriving Repr, DecidableEq

namespace Roller
variable {r : Roller} {context : Context} {target : Target} {s s' : RollState} {new : Piece}

/-- A call that rolls a part again, with the state that it ends in. -/
def callReroll (r : Roller) (path : IndexPath) (root : Node) (context : Context) (s : RollState) :
    Except CallFault Node × RollState :=
  match r.reroll path root context with
  | .error fault => (.error (.refused fault), s)
  | .ok roll =>
    let (result, s') := roll.runFrom s
    (result.mapError .roll, s')

/-! ## Whether a target can be rolled again -/

theorem rerollTarget_of_not_registered (h : ¬ target.IsRegistered r.registry) :
    r.rerollTarget context target = .error (.noDefinition target.path) := by
  cases target with
  | node found =>
    cases hget : r.registry.get? found.path with
    | none => simp only [rerollTarget, hget, Target.path]
    | some d => exact absurd ⟨d, hget⟩ h
  | row parent index row =>
    simp only [rerollTarget]
    split
    · next table hget => exact absurd ⟨table, hget⟩ h
    · rfl
  | nodes parent index nodes =>
    simp only [rerollTarget]
    split
    · next bundle hget => exact absurd ⟨bundle, hget⟩ h
    · rfl

/-- A target that is registered can be rolled again where all dice have sides. The instructions are
those of the node that the target is rolled from. -/
theorem rerollTarget_of_registered (hregistry : r.registry.HasSides)
    (howner : target.owner.ref.HasSides) (h : target.IsRegistered r.registry) (context : Context) :
    ∃ roll, r.rerollTarget context target = .ok roll ∧ Succeeds roll fun _ => True := by
  have hchildren : Batch.SucceedingChildren (r.children context) := childrenAt_succeeds hregistry _
  cases target with
  | node found =>
    obtain ⟨d, hget⟩ := h
    have hroll := rollDefinition_succeeds (r := r) hchildren context howner (hregistry _ d hget)
    simp only [rerollTarget, hget]
    exact ⟨_, rfl, hroll.map _ fun _ _ => trivial⟩
  | row parent index row =>
    obtain ⟨table, hget⟩ := h
    have hbatch : Batch.HasSides (batchAgain context parent table) :=
      ⟨hregistry _ _ hget, howner⟩
    have hrow : Succeeds (r.rerollRow context parent index row table) fun _ => True :=
      (Batch.rollRows_succeeds hbatch hchildren _ 1).bind fun rows _ => .pure trivial
    simp only [rerollTarget, hget]
    exact ⟨_, rfl, hrow.map _ fun _ _ => trivial⟩
  | nodes parent index nodes =>
    obtain ⟨bundle, hget⟩ := h
    have hnodes := hchildren bundle.path context .empty bundle.refs (hregistry _ _ hget)
    simp only [rerollTarget, hget]
    exact ⟨_, rfl, hnodes.map _ fun _ _ => trivial⟩

/-! ## What is logged -/

theorem rollDefinition_looksUp {ref : Reference} {d : Definition} {node : Node}
    (h : (r.rollDefinition (r.children context) context ref d).runFrom s = (.ok node, s')) :
    ∃ lookups, s.LooksUp lookups s' := by
  cases d with
  | table table =>
    obtain ⟨roll, t, hroll, hnode⟩ := runFrom_bind_eq_ok_iff.1 h
    obtain ⟨rfl, rfl⟩ := runFrom_pure_eq_ok_iff.1 hnode
    obtain ⟨_, _, _, _, _, ⟨inputsRun⟩, ⟨rowsRun⟩, ⟨extraRun⟩, _⟩ :=
      runs_of_rollTable (children_traced context) hroll
    exact ⟨_, (inputsRun.looksUp.trans rowsRun.looksUp).trans extraRun.looksUp⟩
  | bundle bundle =>
    obtain ⟨roll, t, hroll, hnode⟩ := runFrom_bind_eq_ok_iff.1 h
    obtain ⟨rfl, rfl⟩ := runFrom_pure_eq_ok_iff.1 hnode
    obtain ⟨_, ⟨repeatsRun⟩, _⟩ := run_of_rollBundle (children_traced context) hroll
    exact ⟨_, repeatsRun.looksUp⟩

/-- Rolling a target again logs dice and look-ups only. -/
theorem rerollTarget_looksUp {roll : Roll Piece}
    (hroll : r.rerollTarget context target = .ok roll) (h : roll.runFrom s = (.ok new, s')) :
    ∃ lookups, s.LooksUp lookups s' := by
  cases target with
  | node found =>
    simp only [rerollTarget] at hroll
    split at hroll
    · obtain rfl := Except.ok.inj hroll
      obtain ⟨node, hnode, rfl⟩ := runFrom_map_eq_ok_iff.1 h
      exact rollDefinition_looksUp hnode
    · cases hroll
  | row parent index row =>
    simp only [rerollTarget] at hroll
    split at hroll
    · next table hget =>
      obtain rfl := Except.ok.inj hroll
      obtain ⟨found, hfound, rfl⟩ := runFrom_map_eq_ok_iff.1 h
      obtain ⟨rows, t, hrows, hrow⟩ := runFrom_bind_eq_ok_iff.1 hfound
      obtain ⟨_, rfl⟩ := runFrom_pure_eq_ok_iff.1 hrow
      obtain ⟨rowsRun⟩ := (succeeds_iff_run (j := .rows (batchAgain context parent table)
        (parent.ref.instructions.ignored context ++ takenTotals parent index) 1)).1 hrows
      exact ⟨_, rowsRun.looksUp⟩
    · cases hroll
  | nodes parent index nodes =>
    simp only [rerollTarget] at hroll
    split at hroll
    · next bundle hget =>
      obtain rfl := Except.ok.inj hroll
      obtain ⟨found, hfound, rfl⟩ := runFrom_map_eq_ok_iff.1 h
      obtain ⟨nodesRun⟩ := (succeeds_iff_run
        (j := .children bundle.path context .empty bundle.refs)).1 hfound
      exact ⟨_, nodesRun.looksUp⟩
    · cases hroll

/-! ## Calls -/

/-- The call puts a new piece of the same kind in the place of the target, and logs its own event
after all others, which are dice and look-ups. -/
def PutsAnew (r : Roller) (path : IndexPath) (root : Node) (context : Context) (s : RollState)
    (l : Location) : Prop :=
  ∃ node t new bodies, r.callReroll path root context s = (.ok node, t) ∧
    new.kind = l.target.piece.kind ∧ root.replace? new path = some node ∧
    s.Logs (bodies ++ [.reroll path l.target.path l.target.kindName]) t ∧
    ∀ body ∈ bodies, body.kind = .lookup ∨ body.kind = .roll

section Calls
variable {path : IndexPath} {root : Node} {l : Location}

theorem callReroll_of_locate?_eq_none (h : root.locate? context path = none) (s : RollState) :
    r.callReroll path root context s = (.error (.refused (.outOfRange path)), s) := by
  simp only [callReroll, reroll, h]

theorem callReroll_of_not_registered (hl : root.locate? context path = some l)
    (h : ¬ l.target.IsRegistered r.registry) (s : RollState) :
    r.callReroll path root context s = (.error (.refused (.noDefinition l.target.path)), s) := by
  have hreroll : r.reroll path root context = .error (.noDefinition l.target.path) := by
    simp only [reroll, hl, rerollTarget_of_not_registered h]
    rfl
  simp only [callReroll, hreroll]

theorem putsAnew_of_registered (hregistry : r.registry.HasSides)
    (hl : root.locate? context path = some l) (howner : l.target.owner.ref.HasSides)
    (h : l.target.IsRegistered r.registry) (s : RollState) : r.PutsAnew path root context s l := by
  obtain ⟨pieceRoll, hpiece, hsucceeds⟩ := rerollTarget_of_registered hregistry howner h l.context
  obtain ⟨new, u, hnew, _⟩ := hsucceeds s
  -- The new piece has a place: what was found there is of the same kind.
  have hkind := kind_of_rerollTarget hpiece hnew
  obtain ⟨node, _, hreplace, _⟩ := Node.exists_replace?_of_locate? hl hkind
  obtain ⟨roll, hroll, hrun⟩ :=
    reroll_succeeds_iff.2 ⟨l, pieceRoll, new, u, hl, hpiece, hnew, rfl, rfl⟩
  rw [hreplace, Option.getD_some] at hrun
  obtain ⟨_, bodies, hlogs, _, hbodies⟩ := rerollTarget_looksUp hpiece hnew
  have hlast := RollState.Logs.logEvent u (.reroll path l.target.path l.target.kindName)
  refine ⟨node, _, new, bodies, ?_, hkind.symm, hreplace, hlogs.trans hlast, hbodies⟩
  simp only [callReroll, hroll, hrun]
  rfl

end Calls

/-- A call that rolls a part again fails cleanly or goes through. It is refused exactly if the path
leads nowhere, or if what its target is rolled from is not registered; then nothing has been drawn
and nothing logged, since the state is the one before. In every other case the outcome has a new
piece of the same kind in the place of the target, and the event of the call is logged last. The
dice of the registry are to have sides, and those in the instructions of the outcome. -/
theorem reroll_all_or_nothing (r : Roller) (hregistry : r.registry.HasSides) (path : IndexPath)
    (root : Node) (hroot : root.Throughout fun node => node.ref.HasSides) (context : Context)
    (s : RollState) :
    (root.locate? context path = none ↔
      r.callReroll path root context s = (.error (.refused (.outOfRange path)), s)) ∧
    ∀ l, root.locate? context path = some l →
      (¬ l.target.IsRegistered r.registry ↔
        r.callReroll path root context s =
          (.error (.refused (.noDefinition l.target.path)), s)) ∧
      (l.target.IsRegistered r.registry → r.PutsAnew path root context s l) := by
  have hputs : ∀ l, root.locate? context path = some l → l.target.IsRegistered r.registry →
      r.PutsAnew path root context s l := by
    intro l hl hregistered
    obtain ⟨level, hbelow⟩ := Node.owner_below_of_locate? hl
    exact putsAnew_of_registered hregistry hl (hroot level _ hbelow) hregistered s
  refine ⟨⟨fun hnone => callReroll_of_locate?_eq_none hnone s, fun hcall => ?_⟩, fun l hl =>
    ⟨⟨fun hnone => callReroll_of_not_registered hl hnone s, fun hcall hregistered => ?_⟩,
      hputs l hl⟩⟩
  · cases hl : root.locate? context path with
    | none => rfl
    | some l =>
      by_cases hregistered : l.target.IsRegistered r.registry
      · obtain ⟨node, t, _, _, hnode, _⟩ := hputs l hl hregistered
        simp [hnode] at hcall
      · simp [callReroll_of_not_registered hl hregistered s] at hcall
  · obtain ⟨node, t, _, _, hnode, _⟩ := hputs l hl hregistered
    simp [hnode] at hcall

theorem hoard_hasSides : Registry.hoard.HasSides := by
  intro path d hget
  have hmem : d ∈ Registry.hoard.definitions := List.mem_of_find?_eq_some hget
  have hgem : (Reference.toPath "/gem").HasSides := by decide
  have hinputs : ∀ e ∈ (Bindings.empty : Bindings Reference).entries, e.2.HasSides := by decide
  have hextra : ∀ template, none = some template → Component.AllHaveSides template := by simp
  obtain rfl | hmem := List.mem_cons.1 hmem
  · refine ⟨⟨?_, hinputs, hextra⟩, by decide⟩
    simp [Component.AllHaveSides, Component.HasSides, hgem]
  · obtain rfl := List.mem_singleton.1 hmem
    refine ⟨⟨?_, hinputs, hextra⟩, by decide⟩
    simp [Component.AllHaveSides, Component.HasSides]

/-- A hoard of two rows. One has a gem and something that is not registered any more, and no row
covered the total of the other. -/
def lostGem : Node :=
  .table ⟨.hoard, ⟨"/hoard", "Hoard", .dice 1 4 false, [], .empty, none⟩,
    [.found ⟨4, .single 4, [],
      [.leaf (.toPath "/gem") "/gem", .leaf (.toPath "/lost") "/lost"], .empty, .empty⟩, .missing 5],
    [], [], []⟩

/-- In the hoard there is no third gem, what is lost is not rolled again, and the second row is. -/
theorem lostGem_all_or_nothing :
    Registry.hoard.HasSides ∧ (lostGem.Throughout fun node => node.ref.HasSides) ∧
      (Roller.mk .hoard SplitMix.source 3).callReroll [0, 2] lostGem .root
        (.start default 7 (.empty default)) =
          (.error (.refused (.outOfRange [0, 2])), .start default 7 (.empty default)) ∧
      (Roller.mk .hoard SplitMix.source 3).callReroll [0, 1] lostGem .root
        (.start default 7 (.empty default)) =
          (.error (.refused (.noDefinition "/lost")), .start default 7 (.empty default)) ∧
      ∃ l, lostGem.locate? .root [1] = some l ∧
        (Roller.mk .hoard SplitMix.source 3).PutsAnew [1] lostGem .root
          (.start default 7 (.empty default)) l := by
  have hroot : lostGem.Throughout fun node => node.ref.HasSides := by decide +kernel
  have hcalls := fun path => reroll_all_or_nothing ⟨.hoard, SplitMix.source, 3⟩ hoard_hasSides path
    lostGem hroot .root (.start default 7 (.empty default))
  refine ⟨hoard_hasSides, hroot, (hcalls [0, 2]).1.1 rfl, ?_, _, rfl, ?_⟩
  · exact ((hcalls [0, 1]).2 _ rfl).1.1 (by rintro ⟨d, hget⟩; cases hget)
  · exact ((hcalls [1]).2 _ rfl).2 ⟨_, rfl⟩

end Roller
end RandomTables
