import RandomTables.Document.Decode
import RandomTables.Proofs.Registry.Loaded
import RandomTables.Proofs.Roller.Success

/-!
# Rolling on a loaded registry

Whatever reference is rolled on a registry that was filled from sources, with whatever source of
draws, rolling succeeds; except that a table without dice of its own, whose rows are selected by no
total above zero, gets a die of no sides that cannot be rolled. One such table makes rolling fail,
since every table that is registered can be referred to.
-/
namespace RandomTables

namespace Registry

/-- A reference that is read from a map with a path alone is trimmed and asks for nothing. -/
theorem ofDocument_path (place : Text) {path : Text} (h : path ≠ []) :
    Reference.ofDocument place (.map [(.text "path", .text path)]) =
      .ok ⟨Text.trim path, .plain⟩ := by
  have hset : (Document.entry? [(.text "path", .text path)] "path").filter Document.isSet =
      some (.text path) := by
    simp [Document.entry?, Document.isSet, Scalar.isSet, h]
  simp only [Reference.ofDocument, hset]
  rfl

section
variable [Decoder] {r : Registry} {sources : List (Text × SourceText)}

/-- All dice have sides in a registry of sources where no table lacks a die. -/
theorem ComesFrom.hasSides (hr : r.ComesFrom sources)
    (h : ∀ path t, r.get? path = some (.table t) → ¬ t.LacksDie) : r.HasSides := by
  intro path d hget
  obtain ⟨raw, hraw⟩ := hr.exists_ofDocument hget
  obtain ⟨_, hparts, hdice⟩ := Definition.ofDocument_fits hraw
  cases d with
  | bundle b => exact hparts
  | table t =>
    rcases hdice t rfl with hsides | hlacks
    · exact ⟨hparts, hsides⟩
    · exact absurd hlacks (h path t hget)

/-- Every definition of a registry of sources can be referred to. -/
theorem ComesFrom.exists_reference (hr : r.ComesFrom sources) {path : Text} {d : Definition}
    (h : r.get? path = some d) :
    ∃ place raw ref, Reference.ofDocument place raw = .ok ref ∧ ref.instructions = .plain ∧
      Path.resolve ref.path "/" r.root = path := by
  obtain ⟨entry, _, _, hpath, _⟩ := hr path d h
  -- A path that is not written out counts as missing, so a blank stands for the empty one.
  by_cases hentry : entry = []
  · have hblank : (" " : Text) ≠ [] := by decide
    refine ⟨"/", _, _, ofDocument_path "/" hblank, rfl, ?_⟩
    rw [hpath, hentry]
    rfl
  · refine ⟨"/", _, _, ofDocument_path "/" hentry, rfl, ?_⟩
    rw [hpath, Path.resolve, Text.trim_trim]
    rfl

end

end Registry

namespace Roller
open Roll
variable {r : Roller}

theorem rollFresh_ne_ok_of_lacksDie {b : Batch} (ht : b.table.LacksDie)
    (hplain : b.instructions = .plain) {source : Source} {ignored : List Int} {tries : Nat}
    (htries : tries ≠ 0) {s s' : RollState} {fresh : Option Int} :
    (b.rollFresh source ignored tries).runFrom s ≠ (.ok fresh, s') := by
  intro h
  cases tries with
  | zero => exact htries rfl
  | succ tries =>
    obtain ⟨total, t, htotal, _⟩ := runFrom_bind_eq_ok_iff.1 h
    simp only [Batch.rollTotal, hplain, Instructions.plain, Option.getD_none, ht.1,
      Dice.Expr.evaluate] at htotal
    obtain ⟨found, t, hfound, _⟩ := runFrom_bind_eq_ok_iff.1 htotal
    obtain ⟨g, t, hg, _⟩ := runFrom_bind_eq_ok_iff.1 hfound
    have hsides := (group_eq_ok_iff.1 hg).1
    omega

/-- A table that lacks a die cannot be rolled by a plain reference. -/
theorem resolve_ne_ok_of_lacksDie {directory : Text} {context : Context} {ref : Reference}
    {t : Table} (hget : r.registry.get? (r.pathOf directory ref) = some (.table t))
    (ht : t.LacksDie) (hplain : ref.instructions = .plain) {s s' : RollState} {node : Node} :
    (r.resolve directory context ref).runFrom s ≠ (.ok node, s') := by
  intro h
  simp only [resolve, rollReference, hget, rollDefinition] at h
  obtain ⟨roll, _, hroll, _⟩ := runFrom_bind_eq_ok_iff.1 h
  obtain ⟨inputs, _, _, hroll⟩ := runFrom_bind_eq_ok_iff.1 hroll
  obtain ⟨rows, _, hrows, _⟩ := runFrom_bind_eq_ok_iff.1 hroll
  have hcount : ref.instructions.count context = 1 := by
    rw [hplain]
    rfl
  rw [hcount] at hrows
  obtain ⟨next, _, hnext, _⟩ := runFrom_bind_eq_ok_iff.1 hrows
  obtain ⟨fresh, _, hfresh, _⟩ := runFrom_bind_eq_ok_iff.1 hnext
  have htries : Batch.maxTries ≠ 0 := by decide
  exact rollFresh_ne_ok_of_lacksDie ht hplain htries hfresh

/-- On a registry that was filled from sources every reference can be rolled, in every context, with
every limit and from every state, exactly if no table of it lacks a die. This is so for each source
of draws by itself. -/
theorem resolve_succeeds_iff [Decoder] {root : Text} {sources : List (Text × SourceText)}
    {registry : Registry} (h : Registry.ofSources root sources = .ok registry) (source : Source) :
    (∀ place raw ref, Reference.ofDocument place raw = .ok ref →
      ∀ (context : Context) (maxDepth : Int) (s : RollState), ∃ node s',
        ((Roller.mk registry source maxDepth).resolve "/" context ref).runFrom s =
          (.ok node, s')) ↔
      ∀ path t, registry.get? path = some (.table t) → ¬ t.LacksDie := by
  obtain ⟨_, hfrom⟩ := Registry.ofSources_comesFrom h
  constructor
  · intro hall path t hget hlacks
    obtain ⟨place, raw, ref, href, hplain, hpath⟩ := hfrom.exists_reference hget
    obtain ⟨node, s', hrun⟩ := hall place raw ref href .root 0 (.start default 0 (.empty default))
    have hown : registry.get? ((Roller.mk registry source 0).pathOf "/" ref) =
        some (.table t) := by
      rw [pathOf, hpath]
      exact hget
    exact resolve_ne_ok_of_lacksDie (r := ⟨registry, source, 0⟩) hown hlacks hplain hrun
  · intro hnone place raw ref href context maxDepth s
    have hregistry : registry.HasSides := hfrom.hasSides hnone
    obtain ⟨node, s', hrun, _⟩ := resolve_succeeds (r := ⟨registry, source, maxDepth⟩) hregistry "/"
      context (Reference.ofDocument_hasSides href) s
    exact ⟨node, s', hrun⟩

end Roller

/-- A source text that holds a table of one row and says nothing of its dice. -/
def SourceText.oneRow (line : Text) : SourceText :=
  .decoded (.map [(.text "rows", .list [.text line])])

/-- The table of one row that is selected by a single total. -/
def Registry.oneRow (total : Nat) (source : Text) : Registry :=
  ⟨"/", [.table ⟨"/t", "t", .dice 1 total false,
    [⟨[.plain "x"], ⟨total, total, Int.le_refl _⟩, source⟩], .empty, none⟩], 1, 1, []⟩

namespace Roller
open Roll

/-- A row for the total one gives its table the die of one side. -/
theorem ofSources_oneRow_one :
    Registry.ofSources "/" [("/t", .oneRow "1|x")] = .ok (.oneRow 1 "1|x") := by
  with_unfolding_all rfl

/-- A row for the total zero gives its table the die without sides. -/
theorem ofSources_oneRow_zero :
    Registry.ofSources "/" [("/t", .oneRow "0|x")] = .ok (.oneRow 0 "0|x") := by
  with_unfolding_all rfl

/-- The table of one row rolls for the total one and not for the total zero. -/
theorem oneRow_resolve_succeeds_iff :
    (∀ place raw ref, Reference.ofDocument place raw = .ok ref →
      ∀ (context : Context) (maxDepth : Int) (s : RollState), ∃ node s',
        ((Roller.mk (.oneRow 1 "1|x") SplitMix.source maxDepth).resolve "/" context ref).runFrom
          s = (.ok node, s')) ∧
    ¬ ∀ place raw ref, Reference.ofDocument place raw = .ok ref →
      ∀ (context : Context) (maxDepth : Int) (s : RollState), ∃ node s',
        ((Roller.mk (.oneRow 0 "0|x") SplitMix.source maxDepth).resolve "/" context ref).runFrom
          s = (.ok node, s') := by
  constructor
  · refine (resolve_succeeds_iff ofSources_oneRow_one SplitMix.source).2 ?_
    intro path t hget hlacks
    have hmem := List.mem_of_find?_eq_some hget
    obtain rfl : t = _ := Definition.table.inj (List.mem_singleton.1 hmem)
    exact absurd hlacks.1 (by decide)
  · intro hall
    have hget : (Registry.oneRow 0 "0|x").get? "/t" = some (.table ⟨"/t", "t", .dice 1 0 false,
        [⟨[.plain "x"], ⟨0, 0, Int.le_refl 0⟩, "0|x"⟩], .empty, none⟩) := rfl
    refine (resolve_succeeds_iff ofSources_oneRow_zero SplitMix.source).1 hall "/t" _ hget
      ⟨rfl, ?_⟩
    simp

/-- Of a table whose only row is for the total zero, and that is referred to by its path, nothing
but the failure of its die comes. -/
theorem oneRow_resolve_noSides :
    Registry.ofSources "/" [("/t", .oneRow "0|x")] = .ok (.oneRow 0 "0|x") ∧
      Reference.ofDocument "/" (.text "/t") = .ok ⟨"/t", .plain⟩ ∧
      (((Roller.mk (.oneRow 0 "0|x") SplitMix.source 10).resolve "/" .root
        ⟨"/t", .plain⟩).runFrom (.start default 0 (.empty default))).1 = .error (.noSides 0) := by
  refine ⟨ofSources_oneRow_zero, ?_, rfl⟩
  with_unfolding_all rfl

end Roller
end RandomTables
