import RandomTables.Proofs.Roll.Basic
import RandomTables.Roller.Resolve

/-!
# Runs

Rolling a reference falls into jobs: references, rows, the references of a row, and so on. A run is
the tree of all jobs that were carried out for one of them, with the context of each, and with the
state before and after it. Leaves of a run are the computations that roll no references.

A computation succeeds exactly if there is a run of its job (`succeeds_iff_run`), so whatever is to
be said about all jobs of a roll at once can be proved by induction on its run.
-/
namespace RandomTables

/-- What is carried out in the course of rolling a reference. -/
inductive Job where
  | reference (directory : Text) (context : Context) (ref : Reference)
  | children (directory : Text) (context : Context) (stored : Bindings Int) (refs : List Reference)
  | siblings (directory : Text) (context : Context) (refs : List Reference)
  | row (batch : Batch) (ignored : List Int)
  | rows (batch : Batch) (ignored : List Int) (count : Nat)
  | extra (context : Context) (table : Table) (inputs : Bindings (List Text))
  | repeats (context : Context) (bundle : Bundle) (count : Nat)

namespace Job

abbrev Yield : Job → Type
  | reference .. => Node
  | children .. => List Node
  | siblings .. => List Node
  | row .. => Option RowRoll
  | rows .. => List RowRoll
  | extra .. => List Resolved × List Node
  | repeats .. => List (List Node)

def context : Job → Context
  | reference _ context _ => context
  | children _ context _ _ => context
  | siblings _ context _ => context
  | row batch _ => batch.context
  | rows batch _ _ => batch.context
  | extra context _ _ => context
  | repeats context _ _ => context

end Job

/-- The rows of a table that is rolled in a context. -/
def Batch.of (context : Context) (ref : Reference) (table : Table) (inputs : List Node) : Batch :=
  ⟨table, context, ref.instructions, Roller.inputTexts table inputs⟩

namespace Roller

/-- Carry out a job. -/
def perform (r : Roller) : (j : Job) → Roll j.Yield
  | .reference directory context ref => r.resolve directory context ref
  | .children directory context stored refs => r.children context directory context stored refs
  | .siblings directory context refs => rollSiblings (r.resolve directory) context refs
  | .row batch ignored => batch.rollNext r.source (r.children batch.context) ignored
  | .rows batch ignored count => batch.rollRows r.source (r.children batch.context) ignored count
  | .extra context table inputs => r.rollExtra (r.children context) context table inputs
  | .repeats context bundle count => rollRepeats (r.children context) context bundle count

end Roller

/-- A job that was carried out, with the jobs that were carried out for it. -/
inductive Run (r : Roller) : (j : Job) → RollState → j.Yield → RollState → Type where
  | leaf {directory context ref s} (hget : r.registry.get? (r.pathOf directory ref) = none) :
    Run r (.reference directory context ref) s (r.leafOf directory ref) s
  | table {directory context ref table s s₁ s₂ s₃ inputs rows extra}
    (hget : r.registry.get? (r.pathOf directory ref) = some (.table table))
    (inputsRun :
      Run r (.children table.path context .empty (table.inputs.entries.map (·.2))) s inputs s₁)
    (rowsRun : Run r (.rows (.of context ref table inputs) (ref.instructions.ignored context)
      (ref.instructions.count context)) s₁ rows s₂)
    (extraRun : Run r (.extra context table (Roller.inputTexts table inputs)) s₂ extra s₃) :
    Run r (.reference directory context ref) s
      (.table ⟨ref, table, rows, extra.1, extra.2, inputs⟩) s₃
  | bundle {directory context ref bundle s s' repeats}
    (hget : r.registry.get? (r.pathOf directory ref) = some (.bundle bundle))
    (repeatsRun : Run r (.repeats context bundle (ref.instructions.count context)) s repeats s') :
    Run r (.reference directory context ref) s (.bundle ⟨ref, bundle, repeats⟩) s'
  | beyond {directory context stored refs s} (hdepth : r.maxDepth < context.depth) :
    Run r (.children directory context stored refs) s (refs.map (r.leafOf directory)) s
  | within {directory context stored refs s nodes s'} (hdepth : context.depth ≤ r.maxDepth)
    (siblingsRun : Run r (.siblings directory (context.child stored) refs) s nodes s') :
    Run r (.children directory context stored refs) s nodes s'
  | nil {directory context s} : Run r (.siblings directory context []) s [] s
  | cons {directory context ref refs s s₁ s₂ node nodes}
    (first : Run r (.reference directory context ref) s node s₁)
    (others : Run r (.siblings directory (context.extended node.exports) refs) s₁ nodes s₂) :
    Run r (.siblings directory context (ref :: refs)) s (node :: nodes) s₂
  | gaveUp {b ignored s s'}
    (hfresh : (b.rollFresh r.source ignored Batch.maxTries).runFrom s = (.ok none, s')) :
    Run r (.row b ignored) s none s'
  | missing {b ignored s s₁ total}
    (hfresh : (b.rollFresh r.source ignored Batch.maxTries).runFrom s = (.ok (some total), s₁))
    (hfind : b.table.findRow? total = none) :
    Run r (.row b ignored) s (some (.missing total))
      { s₁ with log := s₁.log.add s₁.now (b.lookupOf (.missing total)) }
  | found {b ignored s s₁ s₂ s₃ total row found nested}
    (hfresh : (b.rollFresh r.source ignored Batch.maxTries).runFrom s = (.ok (some total), s₁))
    (hfind : b.table.findRow? total = some row)
    (hresolve : (Template.resolve r.source ⟨b.context, b.inputs⟩ b.instructions.store
      row.template).runFrom s₁ = (.ok found, s₂))
    (nestedRun : Run r (.children b.table.path b.context found.stored found.refs) s₂ nested s₃) :
    Run r (.row b ignored) s
      (some (.found ⟨total, row.range, found.text, nested, found.values, found.stored⟩))
      { s₃ with log := s₃.log.add s₃.now (b.lookupOf
        (.found ⟨total, row.range, found.text, nested, found.values, found.stored⟩)) }
  | noRows {b ignored s} : Run r (.rows b ignored 0) s [] s
  | stopped {b ignored count s s'} (first : Run r (.row b ignored) s none s') :
    Run r (.rows b ignored (count + 1)) s [] s'
  | more {b ignored count s s₁ s₂ row rows} (first : Run r (.row b ignored) s (some row) s₁)
    (others : Run r (.rows b (b.ignoredAfter ignored row) count) s₁ rows s₂) :
    Run r (.rows b ignored (count + 1)) s (row :: rows) s₂
  | noExtra {context table inputs s} (hextra : table.extra = none) :
    Run r (.extra context table inputs) s ([], []) s
  | extra {context table inputs template s s₁ s₂ found nodes} (hextra : table.extra = some template)
    (hresolve : (Template.resolve r.source ⟨context, inputs⟩ .empty template).runFrom s =
      (.ok found, s₁))
    (nodesRun : Run r (.children table.path context .empty found.refs) s₁ nodes s₂) :
    Run r (.extra context table inputs) s (found.text, nodes) s₂
  | noRepeats {context bundle s} : Run r (.repeats context bundle 0) s [] s
  | again {context bundle count s s₁ s₂ nodes repeats}
    (first : Run r (.children bundle.path context .empty bundle.refs) s nodes s₁)
    (others : Run r (.repeats context bundle count) s₁ repeats s₂) :
    Run r (.repeats context bundle (count + 1)) s (nodes :: repeats) s₂

namespace Roller
open Roll
variable {r : Roller}

/-! ## What a run says about the computation -/

/-- Siblings are rolled alike by two ways to roll a reference that agree at their depth. -/
theorem rollSiblings_congr {roll roll' : Context → Reference → Roll Node} {depth : Int}
    (h : ∀ context ref, context.depth = depth → roll context ref = roll' context ref)
    {context : Context} (hdepth : context.depth = depth) (refs : List Reference) :
    rollSiblings roll context refs = rollSiblings roll' context refs := by
  induction refs generalizing context with
  | nil => rfl
  | cons ref rest ih =>
    rw [rollSiblings, rollSiblings, h context ref hdepth]
    congr 1
    funext node
    rw [ih (by rw [Context.extended_depth, hdepth])]

/-- Within the limit the references of a definition are siblings, each of which is rolled for
itself. -/
theorem children_eq_siblings {context : Context} (h : context.depth ≤ r.maxDepth)
    (directory : Text) (stored : Bindings Int) (refs : List Reference) :
    r.children context directory context stored refs =
      rollSiblings (r.resolve directory) (context.child stored) refs := by
  rw [children_of_le h]
  refine rollSiblings_congr (fun context' ref hdepth => ?_) (context.child_depth stored) refs
  rw [resolve, children, hdepth]

/-- A run gives what the computation comes to. -/
theorem succeeds_of_run {j : Job} {s s' : RollState} {a : j.Yield} (run : Run r j s a s') :
    (r.perform j).runFrom s = (.ok a, s') := by
  induction run with
  | leaf hget =>
    simp only [perform, resolve, rollReference, hget]
    rfl
  | table hget _ _ _ inputs rows extra =>
    simp only [perform, resolve, rollReference, hget, rollDefinition]
    refine runFrom_bind_eq_ok_iff.2 ⟨_, _, ?_, rfl⟩
    unfold rollTable
    exact (runFrom_bind_of_ok inputs).trans
      ((runFrom_bind_of_ok rows).trans (runFrom_bind_of_ok extra))
  | bundle hget _ repeats =>
    simp only [perform, resolve, rollReference, hget, rollDefinition]
    exact runFrom_bind_eq_ok_iff.2 ⟨_, _, runFrom_bind_of_ok repeats, rfl⟩
  | beyond hdepth =>
    simp only [perform, children_of_lt hdepth]
    rfl
  | within hdepth _ siblings =>
    simp only [perform, children_eq_siblings hdepth]
    exact siblings
  | nil => rfl
  | cons _ _ first others => exact (runFrom_bind_of_ok first).trans (runFrom_bind_of_ok others)
  | gaveUp hfresh => exact runFrom_bind_of_ok hfresh
  | missing hfresh hfind =>
    refine (runFrom_bind_of_ok hfresh).trans ?_
    simp only [Batch.rollRow, hfind]
    rfl
  | found hfresh hfind hresolve _ nested =>
    refine (runFrom_bind_of_ok hfresh).trans ?_
    simp only [Batch.rollRow, hfind]
    refine runFrom_bind_eq_ok_iff.2 ⟨_, _, ?_, rfl⟩
    exact (runFrom_bind_of_ok hresolve).trans (runFrom_bind_of_ok nested)
  | noRows => rfl
  | stopped _ first => exact runFrom_bind_of_ok first
  | more _ _ first others => exact (runFrom_bind_of_ok first).trans (runFrom_bind_of_ok others)
  | noExtra hextra =>
    simp only [perform, rollExtra, hextra]
    rfl
  | extra hextra hresolve _ nodes =>
    simp only [perform, rollExtra, hextra]
    exact (runFrom_bind_of_ok hresolve).trans (runFrom_bind_of_ok nodes)
  | noRepeats => rfl
  | again _ _ first others => exact (runFrom_bind_of_ok first).trans (runFrom_bind_of_ok others)

/-! ## Where the computation succeeds there is a run -/

/-- Every success of the job has a run. -/
def Traced (r : Roller) (j : Job) : Prop :=
  ∀ {s s' : RollState} {a : j.Yield},
    (r.perform j).runFrom s = (.ok a, s') → Nonempty (Run r j s a s')

/-- Every success of rolling the references of a definition in the context has a run. -/
def ChildrenTraced (r : Roller) (context : Context) : Prop :=
  ∀ directory stored refs, Traced r (.children directory context stored refs)

theorem extra_traced {context : Context} (h : ChildrenTraced r context) (table : Table)
    (inputs : Bindings (List Text)) : Traced r (.extra context table inputs) := by
  intro s s' a hrun
  simp only [perform, rollExtra] at hrun
  cases hextra : table.extra with
  | none =>
    rw [hextra] at hrun
    obtain ⟨rfl, rfl⟩ := runFrom_pure_eq_ok_iff.1 hrun
    exact ⟨.noExtra hextra⟩
  | some template =>
    rw [hextra] at hrun
    obtain ⟨found, s₁, hresolve, hrun⟩ := runFrom_bind_eq_ok_iff.1 hrun
    obtain ⟨nodes, s₂, hnodes, hrun⟩ := runFrom_bind_eq_ok_iff.1 hrun
    obtain ⟨rfl, rfl⟩ := runFrom_pure_eq_ok_iff.1 hrun
    obtain ⟨nodesRun⟩ := h _ _ _ hnodes
    exact ⟨.extra hextra hresolve nodesRun⟩

theorem row_traced {b : Batch} (h : ChildrenTraced r b.context) (ignored : List Int) :
    Traced r (.row b ignored) := by
  intro s s' a hrun
  obtain ⟨fresh, s₁, hfresh, hrun⟩ := runFrom_bind_eq_ok_iff.1 hrun
  cases fresh with
  | none =>
    obtain ⟨rfl, rfl⟩ := runFrom_pure_eq_ok_iff.1 hrun
    exact ⟨.gaveUp hfresh⟩
  | some total =>
    obtain ⟨row, s₂, hrow, hrun⟩ := runFrom_bind_eq_ok_iff.1 hrun
    obtain ⟨_, s₃, hlog, hrun⟩ := runFrom_bind_eq_ok_iff.1 hrun
    obtain ⟨rfl, rfl⟩ := runFrom_pure_eq_ok_iff.1 hrun
    obtain ⟨_, rfl⟩ := Prod.mk.inj hlog
    unfold Batch.rollRow at hrow
    cases hfind : b.table.findRow? total with
    | none =>
      rw [hfind] at hrow
      obtain ⟨rfl, rfl⟩ := runFrom_pure_eq_ok_iff.1 hrow
      exact ⟨.missing hfresh hfind⟩
    | some selected =>
      rw [hfind] at hrow
      obtain ⟨found, s₃, hresolve, hrow⟩ := runFrom_bind_eq_ok_iff.1 hrow
      obtain ⟨nested, s₄, hnested, hrow⟩ := runFrom_bind_eq_ok_iff.1 hrow
      obtain ⟨rfl, rfl⟩ := runFrom_pure_eq_ok_iff.1 hrow
      obtain ⟨nestedRun⟩ := h _ _ _ hnested
      exact ⟨.found hfresh hfind hresolve nestedRun⟩

theorem rows_traced {b : Batch} (h : ChildrenTraced r b.context) (ignored : List Int)
    (count : Nat) : Traced r (.rows b ignored count) := by
  intro s s' rows hrun
  induction count generalizing ignored s with
  | zero =>
    obtain ⟨rfl, rfl⟩ := runFrom_pure_eq_ok_iff.1 hrun
    exact ⟨.noRows⟩
  | succ count ih =>
    obtain ⟨next, s₁, hnext, hrun⟩ := runFrom_bind_eq_ok_iff.1 hrun
    obtain ⟨first⟩ := row_traced h ignored hnext
    cases next with
    | none =>
      obtain ⟨rfl, rfl⟩ := runFrom_pure_eq_ok_iff.1 hrun
      exact ⟨.stopped first⟩
    | some row =>
      obtain ⟨rest, s₂, hrest, hrun⟩ := runFrom_bind_eq_ok_iff.1 hrun
      obtain ⟨rfl, rfl⟩ := runFrom_pure_eq_ok_iff.1 hrun
      obtain ⟨others⟩ := ih (b.ignoredAfter ignored row) hrest
      exact ⟨.more first others⟩

theorem repeats_traced {context : Context} (h : ChildrenTraced r context) (bundle : Bundle)
    (count : Nat) : Traced r (.repeats context bundle count) := by
  intro s s' repeats hrun
  induction count generalizing s with
  | zero =>
    obtain ⟨rfl, rfl⟩ := runFrom_pure_eq_ok_iff.1 hrun
    exact ⟨.noRepeats⟩
  | succ count ih =>
    obtain ⟨nodes, s₁, hnodes, hrun⟩ := runFrom_bind_eq_ok_iff.1 hrun
    obtain ⟨rest, s₂, hrest, hrun⟩ := runFrom_bind_eq_ok_iff.1 hrun
    obtain ⟨rfl, rfl⟩ := runFrom_pure_eq_ok_iff.1 hrun
    obtain ⟨first⟩ := h _ _ _ hnodes
    obtain ⟨others⟩ := ih hrest
    exact ⟨.again first others⟩

/-- A table is rolled in three jobs: its inputs, its rows and its extra text. -/
theorem runs_of_rollTable {context : Context} (h : ChildrenTraced r context) {ref : Reference}
    {table : Table} {s s' : RollState} {roll : TableRoll}
    (hroll : (r.rollTable (r.children context) context ref table).runFrom s = (.ok roll, s')) :
    ∃ inputs rows extra s₁ s₂,
      Nonempty (Run r (.children table.path context .empty (table.inputs.entries.map (·.2)))
        s inputs s₁) ∧
      Nonempty (Run r (.rows (.of context ref table inputs) (ref.instructions.ignored context)
        (ref.instructions.count context)) s₁ rows s₂) ∧
      Nonempty (Run r (.extra context table (inputTexts table inputs)) s₂ extra s') ∧
      roll = ⟨ref, table, rows, extra.1, extra.2, inputs⟩ := by
  obtain ⟨inputs, s₁, hinputs, hroll⟩ := runFrom_bind_eq_ok_iff.1 hroll
  obtain ⟨rows, s₂, hrows, hroll⟩ := runFrom_bind_eq_ok_iff.1 hroll
  obtain ⟨extra, s₃, hextra, hroll⟩ := runFrom_bind_eq_ok_iff.1 hroll
  obtain ⟨rfl, rfl⟩ := runFrom_pure_eq_ok_iff.1 hroll
  have hrowsRun := rows_traced (b := .of context ref table inputs) h _ _ hrows
  exact ⟨inputs, rows, extra, s₁, s₂, h _ _ _ hinputs, hrowsRun, extra_traced h _ _ hextra, rfl⟩

/-- A bundle is rolled in one job, its repeats. -/
theorem run_of_rollBundle {context : Context} (h : ChildrenTraced r context) {ref : Reference}
    {bundle : Bundle} {s s' : RollState} {roll : BundleRoll}
    (hroll : (rollBundle (r.children context) context ref bundle).runFrom s = (.ok roll, s')) :
    ∃ repeats,
      Nonempty (Run r (.repeats context bundle (ref.instructions.count context)) s repeats s') ∧
      roll = ⟨ref, bundle, repeats⟩ := by
  obtain ⟨repeats, s₁, hrepeats, hroll⟩ := runFrom_bind_eq_ok_iff.1 hroll
  obtain ⟨rfl, rfl⟩ := runFrom_pure_eq_ok_iff.1 hroll
  exact ⟨repeats, repeats_traced h _ _ hrepeats, rfl⟩

/-- A reference has a run if the references below it do. -/
theorem reference_traced {context : Context} (h : ChildrenTraced r context) (directory : Text)
    (ref : Reference) : Traced r (.reference directory context ref) := by
  intro s s' node hrun
  simp only [perform, resolve, rollReference] at hrun
  cases hget : r.registry.get? (r.pathOf directory ref) with
  | none =>
    rw [hget] at hrun
    obtain ⟨rfl, rfl⟩ := runFrom_pure_eq_ok_iff.1 hrun
    exact ⟨.leaf hget⟩
  | some d =>
    rw [hget] at hrun
    cases d with
    | table table =>
      obtain ⟨roll, t, hroll, hrun⟩ := runFrom_bind_eq_ok_iff.1 hrun
      obtain ⟨rfl, rfl⟩ := runFrom_pure_eq_ok_iff.1 hrun
      obtain ⟨_, _, _, _, _, ⟨inputsRun⟩, ⟨rowsRun⟩, ⟨extraRun⟩, rfl⟩ := runs_of_rollTable h hroll
      exact ⟨.table hget inputsRun rowsRun extraRun⟩
    | bundle bundle =>
      obtain ⟨roll, t, hroll, hrun⟩ := runFrom_bind_eq_ok_iff.1 hrun
      obtain ⟨rfl, rfl⟩ := runFrom_pure_eq_ok_iff.1 hrun
      obtain ⟨_, ⟨repeatsRun⟩, rfl⟩ := run_of_rollBundle h hroll
      exact ⟨.bundle hget repeatsRun⟩

/-- Siblings have a run if references of their depth do. -/
theorem siblings_traced {depth : Int} {directory : Text}
    (h : ∀ context ref, context.depth = depth → Traced r (.reference directory context ref))
    {context : Context} (hdepth : context.depth = depth) (refs : List Reference) :
    Traced r (.siblings directory context refs) := by
  intro s s' nodes hrun
  induction refs generalizing context s with
  | nil =>
    obtain ⟨rfl, rfl⟩ := runFrom_pure_eq_ok_iff.1 hrun
    exact ⟨.nil⟩
  | cons ref rest ih =>
    obtain ⟨node, s₁, hnode, hrun⟩ := runFrom_bind_eq_ok_iff.1 hrun
    obtain ⟨nodes, s₂, hnodes, hrun⟩ := runFrom_bind_eq_ok_iff.1 hrun
    obtain ⟨rfl, rfl⟩ := runFrom_pure_eq_ok_iff.1 hrun
    obtain ⟨first⟩ := h context ref hdepth hnode
    have hnext : (context.extended node.exports).depth = depth := hdepth
    obtain ⟨others⟩ := ih hnext hnodes
    exact ⟨.cons first others⟩

/-- The references of a definition have a run; the induction is on the levels that are left. -/
theorem children_traced (context : Context) : ChildrenTraced r context := by
  generalize hlevels : r.levelsBelow context.depth = levels
  induction levels generalizing context with
  | zero =>
    intro directory stored refs s s' nodes hrun
    have hdepth : r.maxDepth < context.depth := by
      unfold levelsBelow at hlevels
      omega
    simp only [perform, children_of_lt hdepth] at hrun
    obtain ⟨rfl, rfl⟩ := runFrom_pure_eq_ok_iff.1 hrun
    exact ⟨.beyond hdepth⟩
  | succ levels ih =>
    intro directory stored refs s s' nodes hrun
    have hdepth : context.depth ≤ r.maxDepth := by
      unfold levelsBelow at hlevels
      omega
    simp only [perform, children_eq_siblings hdepth] at hrun
    have href : ∀ context' ref, context'.depth = context.depth + 1 →
        Traced r (.reference directory context' ref) := by
      intro context' ref hcontext
      refine reference_traced (ih context' ?_) directory ref
      rw [hcontext]
      unfold levelsBelow at hlevels ⊢
      omega
    obtain ⟨siblingsRun⟩ := siblings_traced href (context.child_depth stored) refs hrun
    exact ⟨.within hdepth siblingsRun⟩

/-- A job succeeds exactly if it has a run. -/
theorem succeeds_iff_run {j : Job} {s s' : RollState} {a : j.Yield} :
    (r.perform j).runFrom s = (.ok a, s') ↔ Nonempty (Run r j s a s') := by
  constructor
  · intro h
    cases j with
    | reference directory context ref => exact reference_traced (children_traced context) _ _ h
    | children directory context stored refs => exact children_traced context _ _ _ h
    | siblings directory context refs =>
      have href : ∀ context' ref, context'.depth = context.depth →
          Traced r (.reference directory context' ref) :=
        fun context' ref _ => reference_traced (children_traced context') directory ref
      exact siblings_traced href rfl refs h
    | row batch ignored => exact row_traced (children_traced batch.context) _ h
    | rows batch ignored count => exact rows_traced (children_traced batch.context) _ _ h
    | extra context table inputs => exact extra_traced (children_traced context) _ _ h
    | repeats context bundle count => exact repeats_traced (children_traced context) _ _ h
  · rintro ⟨run⟩
    exact succeeds_of_run run

end Roller

/-! ## A hoard

A small registry to try statements on: a hoard is made of rings and gems, and gems are rolled on a
table of their own. -/

/-- A table whose upper rows store a value and refer to a second table twice. -/
def Registry.hoard : Registry :=
  .ofDefinitions "/" [
    .table ⟨"/hoard", "Hoard", .dice 1 4 false,
      [⟨[.plain "a ring"], ⟨1, 2, by decide⟩, "1-2|a ring"⟩,
        ⟨[.computed "carats" (.dice 1 6 false), .reference (.toPath "/gem") none,
          .reference (.toPath "/gem") none], ⟨3, 4, by decide⟩, "3-4|gems"⟩], .empty, none⟩,
    .table ⟨"/gem", "Gem", .dice 1 2 false,
      [⟨[.plain "an opal"], ⟨1, 2, by decide⟩, "1-2|an opal"⟩], .empty, none⟩]

/-- Three different rows of the hoard, which store the size of their gems. -/
def Reference.hoard : Reference :=
  ⟨"/hoard", { Instructions.plain with
    repeats := some (.fixed 3)
    unique := true
    store := ⟨[("carats", "carats")]⟩ }⟩

end RandomTables
