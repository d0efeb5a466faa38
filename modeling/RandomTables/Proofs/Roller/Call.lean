import RandomTables.IndexPath.Locate
import RandomTables.Proofs.Roller.Fresh

/-!
# The calls that rolled the parts of an outcome

An index path leads down an outcome, and it leads in the same way down the run that the outcome came
from: to the job that rolled the part at its end. Following the path through the finished outcome
therefore has to come to the context in which that job was carried out. The one exception are leaves
beyond the limit of the depth, for which no job was carried out.
-/
namespace RandomTables

/-- A job that was carried out in a run. -/
structure Call (r : Roller) where
  job : Job
  before : RollState
  outcome : job.Yield
  after : RollState
  run : Run r job before outcome after

/-- The part of an outcome that a job comes to, if it is one that a path can lead to. -/
def Job.piece? : (j : Job) → j.Yield → Option Piece
  | .reference .., node => some (.node node)
  | .children .., nodes => some (.nodes nodes)
  | .row .., found => found.map Piece.row
  | _, _ => none

namespace Run
variable {r : Roller} {j : Job} {s s' : RollState} {a : j.Yield}

def call (run : Run r j s a s') : Call r := ⟨j, s, a, s', run⟩

/-- The job that rolled the part to which a path leads. -/
def callAt? {j : Job} {s s' : RollState} {a : j.Yield} :
    Run r j s a s' → IndexPath → Option (Call r)
  | run, [] => some run.call
  | .table _ _ rowsRun _, i :: rest => rowsRun.callAt? (i :: rest)
  | .bundle _ repeatsRun, i :: rest => repeatsRun.callAt? (i :: rest)
  | .within _ siblingsRun, i :: rest => siblingsRun.callAt? (i :: rest)
  | .cons first others, i :: rest =>
    if i = 0 then first.callAt? rest else others.callAt? ((i - 1) :: rest)
  | .found _ _ _ nestedRun, i :: rest => nestedRun.callAt? (i :: rest)
  | .more first others, i :: rest =>
    if i = 0 then first.callAt? rest else others.callAt? ((i - 1) :: rest)
  | .again first others, i :: rest =>
    if i = 0 then first.callAt? rest else others.callAt? ((i - 1) :: rest)
  | _, _ :: _ => none
termination_by structural run => run

@[simp] theorem callAt?_nil (run : Run r j s a s') : run.callAt? [] = some run.call := by
  cases run <;> rfl

/-! In a list of jobs the number zero leads to the first one, and every other number to the one
before it in the rest. -/

theorem callAt?_cons_succ {directory context ref refs s₁ node nodes}
    (first : Run r (.reference directory context ref) s node s₁)
    (others : Run r (.siblings directory (context.extended node.exports) refs) s₁ nodes s')
    (index : Nat) (rest : IndexPath) :
    (Run.cons first others).callAt? (((index + 1 : Nat) : Int) :: rest) =
      others.callAt? (index :: rest) := by
  simp only [callAt?]
  rw [if_neg (by omega), show ((index + 1 : Nat) : Int) - 1 = index by omega]

theorem callAt?_more_succ {b ignored count s₁ row rows}
    (first : Run r (.row b ignored) s (some row) s₁)
    (others : Run r (.rows b (b.ignoredAfter ignored row) count) s₁ rows s')
    (index : Nat) (rest : IndexPath) :
    (Run.more first others).callAt? (((index + 1 : Nat) : Int) :: rest) =
      others.callAt? (index :: rest) := by
  simp only [callAt?]
  rw [if_neg (by omega), show ((index + 1 : Nat) : Int) - 1 = index by omega]

theorem callAt?_again_succ {context bundle count s₁ nodes repeats}
    (first : Run r (.children bundle.path context .empty bundle.refs) s nodes s₁)
    (others : Run r (.repeats context bundle count) s₁ repeats s')
    (index : Nat) (rest : IndexPath) :
    (Run.again first others).callAt? (((index + 1 : Nat) : Int) :: rest) =
      others.callAt? (index :: rest) := by
  simp only [callAt?]
  rw [if_neg (by omega), show ((index + 1 : Nat) : Int) - 1 = index by omega]

end Run

namespace Run
variable {r : Roller} {b : Batch} {s s' : RollState}

/-- The row at an index has a run of its own, and paths go on in it. -/
theorem row_at {ignored : List Int} {count : Nat} {rows : List RowRoll}
    (run : Run r (.rows b ignored count) s rows s') {index : Nat} {row : RowRoll}
    (h : rows[index]? = some row) :
    ∃ t t', ∃ rowRun : Run r (.row b (b.ignoredBefore ignored rows index)) t (some row) t',
      ∀ rest, run.callAt? (index :: rest) = rowRun.callAt? rest := by
  induction count generalizing ignored s rows index with
  | zero =>
    cases run
    simp at h
  | succ count ih =>
    cases run with
    | stopped first => simp at h
    | more first others =>
      cases index with
      | zero =>
        obtain rfl := Option.some.inj h
        exact ⟨_, _, first, fun rest => rfl⟩
      | succ index =>
        obtain ⟨t, t', rowRun, hcall⟩ := ih others h
        exact ⟨t, t', rowRun, fun rest => (callAt?_more_succ first others index rest).trans
          (hcall rest)⟩

theorem row_of_mem {ignored : List Int} {count : Nat} {rows : List RowRoll}
    (run : Run r (.rows b ignored count) s rows s') {row : RowRoll} (h : row ∈ rows) :
    ∃ before t t', Nonempty (Run r (.row b before) t (some row) t') := by
  obtain ⟨index, hindex⟩ := List.getElem?_of_mem h
  obtain ⟨t, t', rowRun, _⟩ := run.row_at hindex
  exact ⟨_, t, t', ⟨rowRun⟩⟩

/-- A sibling has a run of its own, in the context that the siblings before it leave. -/
theorem sibling_at {directory : Text} {context : Context} {refs : List Reference}
    {nodes : List Node} (run : Run r (.siblings directory context refs) s nodes s')
    {index : Nat} {node : Node} (h : nodes[index]? = some node) :
    ∃ ref t t', ∃ nodeRun :
        Run r (.reference directory (context.after (nodes.take index)) ref) t node t',
      ∀ rest, run.callAt? (index :: rest) = nodeRun.callAt? rest := by
  induction refs generalizing context s nodes index with
  | nil =>
    cases run
    simp at h
  | cons ref refs ih =>
    cases run with
    | cons first others =>
      cases index with
      | zero =>
        obtain rfl := Option.some.inj h
        exact ⟨ref, _, _, first, fun rest => rfl⟩
      | succ index =>
        obtain ⟨ref', t, t', nodeRun, hcall⟩ := ih others h
        exact ⟨ref', t, t', nodeRun, fun rest => (callAt?_cons_succ first others index rest).trans
          (hcall rest)⟩

/-- A repeat of a bundle has a run of its own. -/
theorem repeat_at {context : Context} {bundle : Bundle} {count : Nat} {repeats : List (List Node)}
    (run : Run r (.repeats context bundle count) s repeats s') {index : Nat} {nodes : List Node}
    (h : repeats[index]? = some nodes) :
    ∃ t t', ∃ nodesRun :
        Run r (.children bundle.path context .empty bundle.refs) t nodes t',
      ∀ rest, run.callAt? (index :: rest) = nodesRun.callAt? rest := by
  induction count generalizing s repeats index with
  | zero =>
    cases run
    simp at h
  | succ count ih =>
    cases run with
    | again first others =>
      cases index with
      | zero =>
        obtain rfl := Option.some.inj h
        exact ⟨_, _, first, fun rest => rfl⟩
      | succ index =>
        obtain ⟨t, t', nodesRun, hcall⟩ := ih others h
        exact ⟨t, t', nodesRun, fun rest => (callAt?_again_succ first others index rest).trans
          (hcall rest)⟩

theorem repeat_of_mem {context : Context} {bundle : Bundle} {count : Nat}
    {repeats : List (List Node)} (run : Run r (.repeats context bundle count) s repeats s')
    {nodes : List Node} (h : nodes ∈ repeats) :
    ∃ t t', Nonempty (Run r (.children bundle.path context .empty bundle.refs) t nodes t') := by
  obtain ⟨index, hindex⟩ := List.getElem?_of_mem h
  obtain ⟨t, t', nodesRun, _⟩ := run.repeat_at hindex
  exact ⟨t, t', ⟨nodesRun⟩⟩

/-- A reference in a definition has a run of its own within the limit, and is a leaf without one
beyond it. -/
theorem child_at {directory : Text} {context : Context} {stored : Bindings Int}
    {refs : List Reference} {nodes : List Node}
    (run : Run r (.children directory context stored refs) s nodes s')
    {index : Nat} {node : Node} (h : nodes[index]? = some node) :
    (∃ ref t t', ∃ nodeRun : Run r
        (.reference directory (context.ofChild stored (nodes.take index)) ref) t node t',
      ∀ rest, run.callAt? (index :: rest) = nodeRun.callAt? rest) ∨
    (r.maxDepth < context.depth ∧ (∃ ref path, node = .leaf ref path) ∧
      ∀ rest, run.callAt? (index :: rest) = none) := by
  cases run with
  | within hdepth siblingsRun => exact .inl (sibling_at siblingsRun h)
  | beyond hdepth =>
    obtain ⟨ref, _, rfl⟩ := by simpa using h
    exact .inr ⟨hdepth, ⟨ref, _, rfl⟩, fun rest => rfl⟩

end Run

/-- The call rolled what stands at the location, and was passed the context that stands there. -/
inductive Rolls (r : Roller) : Call r → Location → Prop where
  | node {directory context ref s node s'}
    (nodeRun : Run r (.reference directory context ref) s node s') :
    Rolls r nodeRun.call ⟨context, .node node⟩
  | row {context ref table inputs count s s' t t' rows extra extraNodes index row}
    (hget : r.registry.get? table.path = some (.table table))
    (rowsRun : Run r (.rows (.of context ref table inputs) (ref.instructions.ignored context) count)
      s rows s')
    (hrow : rows[index]? = some row)
    (rowRun : Run r (.row (.of context ref table inputs) (Batch.ignoredBefore
      (.of context ref table inputs) (ref.instructions.ignored context) rows index))
      t (some row) t') :
    Rolls r rowRun.call ⟨context, .row ⟨ref, table, rows, extra, extraNodes, inputs⟩ index row⟩
  | nodes {context ref bundle repeats index s nodes s'}
    (hget : r.registry.get? bundle.path = some (.bundle bundle))
    (nodesRun : Run r (.children bundle.path context .empty bundle.refs) s nodes s') :
    Rolls r nodesRun.call ⟨context, .nodes ⟨ref, bundle, repeats⟩ index nodes⟩

/-- A leaf that was left because it lies beyond the limit, so that no call was made for it. -/
def Location.Cut (r : Roller) (l : Location) : Prop :=
  (∃ ref path, l.target = .node (.leaf ref path)) ∧ r.maxDepth + 1 < l.context.depth

/-- The call rolled what stands at the location; where there is no call, there is a leaf beyond the
limit. -/
def Accounts (r : Roller) (called : Option (Call r)) (l : Location) : Prop :=
  (∃ call, called = some call ∧ Rolls r call l) ∨ (called = none ∧ l.Cut r)

namespace Run
variable {r : Roller} {s s' : RollState} {l : Location}

/-- A path that goes on in one of the references of a definition leads to what was rolled there. -/
theorem accounts_below {directory : Text} {context : Context} {stored : Bindings Int}
    {refs : List Reference} {nodes : List Node}
    (run : Run r (.children directory context stored refs) s nodes s')
    {index : Nat} {node : Node} (hnode : nodes[index]? = some node) {rest : IndexPath}
    (hlocate : node.locate? (context.ofChild stored (nodes.take index)) rest = some l)
    (ih : ∀ {ref t t'} (nodeRun : Run r
        (.reference directory (context.ofChild stored (nodes.take index)) ref) t node t'),
      Accounts r (nodeRun.callAt? rest) l) :
    Accounts r (run.callAt? (index :: rest)) l := by
  rcases run.child_at hnode with ⟨ref, t, t', nodeRun, hcall⟩ | ⟨hdepth, ⟨ref, path, rfl⟩, hcall⟩
  · rw [hcall]
    exact ih nodeRun
  · refine .inr ⟨hcall rest, ?_⟩
    -- Nothing lies below a leaf, so the path ends here.
    cases rest with
    | cons i rest => simp [Node.locate?] at hlocate
    | nil =>
      obtain rfl := Option.some.inj hlocate
      refine ⟨⟨ref, path, rfl⟩, ?_⟩
      simp only [Context.ofChild, Context.after_depth, Context.child_depth]
      omega

/-- Whatever a path leads to was rolled by the call to which the path leads in the run, unless it is
a leaf beyond the limit. -/
theorem accounts_of_locate? {directory : Text} {context : Context} {ref : Reference} {node : Node}
    (run : Run r (.reference directory context ref) s node s') {path : IndexPath}
    (h : node.locate? context path = some l) : Accounts r (run.callAt? path) l := by
  fun_induction Node.locate? context node path generalizing directory ref s s' with
  | case1 context node =>
    obtain rfl := Option.some.inj h
    exact .inl ⟨_, run.callAt?_nil, .node run⟩
  | case2 context roll i =>
    obtain ⟨row, hrow, rfl⟩ := Option.map_eq_some_iff.1 h
    obtain ⟨index, rfl, hrow⟩ := itemAt?_eq_some_iff.1 hrow
    cases run with
    | table hget _ rowsRun _ =>
      obtain ⟨t, t', rowRun, hcall⟩ := rowsRun.row_at hrow
      refine .inl ⟨rowRun.call, (hcall []).trans rowRun.callAt?_nil, ?_⟩
      exact .row (Registry.get?_path_of_get?_eq_some hget) rowsRun hrow rowRun
  | case3 context roll i =>
    obtain ⟨nodes, hnodes, rfl⟩ := Option.map_eq_some_iff.1 h
    obtain ⟨index, rfl, hnodes⟩ := itemAt?_eq_some_iff.1 hnodes
    cases run with
    | bundle hget repeatsRun =>
      obtain ⟨t, t', nodesRun, hcall⟩ := repeatsRun.repeat_at hnodes
      refine .inl ⟨nodesRun.call, (hcall []).trans nodesRun.callAt?_nil, ?_⟩
      exact .nodes (Registry.get?_path_of_get?_eq_some hget) nodesRun
  | case4 context roll i j rest row hrow node hnode ih =>
    obtain ⟨index, rfl, hrow⟩ := itemAt?_eq_some_iff.1 hrow
    obtain ⟨number, rfl, hnode⟩ := itemAt?_eq_some_iff.1 hnode
    cases run with
    | table hget _ rowsRun _ =>
      obtain ⟨t, t', rowRun, hcall⟩ := rowsRun.row_at hrow
      cases rowRun with
      | found _ _ _ nestedRun =>
        have hbelow := nestedRun.accounts_below hnode h fun nodeRun => ih nodeRun h
        exact (hcall (number :: rest)).symm ▸ hbelow
  | case7 context roll i j rest nodes hnodes node hnode ih =>
    obtain ⟨index, rfl, hnodes⟩ := itemAt?_eq_some_iff.1 hnodes
    obtain ⟨number, rfl, hnode⟩ := itemAt?_eq_some_iff.1 hnode
    cases run with
    | bundle hget repeatsRun =>
      obtain ⟨t, t', nodesRun, hcall⟩ := repeatsRun.repeat_at hnodes
      have hbelow := nodesRun.accounts_below hnode h fun nodeRun => ih nodeRun h
      exact (hcall (number :: rest)).symm ▸ hbelow
  | case5 => cases h
  | case6 => cases h
  | case8 => cases h
  | case9 => cases h
  | case10 => cases h

end Run

namespace Roller

/-- A path that is followed through the finished outcome comes to the context that was passed to the
call which rolled the part at its end: its depth and all its bindings. For a row or a repeat this is
the context that the table or bundle was rolled in. The only parts without a call are leaves beyond
the limit. -/
theorem callAt?_context_of_locate? (r : Roller) (directory : Text) (context : Context)
    (ref : Reference) (s s' : RollState) (node : Node)
    (h : (r.resolve directory context ref).runFrom s = (.ok node, s')) :
    Nonempty (Run r (.reference directory context ref) s node s') ∧
      ∀ (run : Run r (.reference directory context ref) s node s') (path : IndexPath)
        (l : Location), node.locate? context path = some l →
          (∃ call, run.callAt? path = some call ∧ call.job.context = l.context ∧
            call.job.piece? call.outcome = some l.target.piece) ∨
          (run.callAt? path = none ∧ l.Cut r) := by
  refine ⟨succeeds_iff_run.1 h, ?_⟩
  intro run path l hlocate
  rcases run.accounts_of_locate? hlocate with ⟨call, hcall, hrolls⟩ | hcut
  · refine .inl ⟨call, hcall, ?_⟩
    cases hrolls with
    | node nodeRun => exact ⟨rfl, rfl⟩
    | row hget rowsRun hrow rowRun => exact ⟨rfl, rfl⟩
    | nodes hget nodesRun => exact ⟨rfl, rfl⟩
  · exact .inr hcut

/-- The first gem in the first row of a hoard is rolled one level down, and sees what its row has
stored. -/
theorem hoard_callAt?_context :
    ∃ node s' l, ∃ run : Run ⟨.hoard, SplitMix.source, 3⟩ (.reference "/" .root .hoard)
        (.start default 7 (.empty default)) node s', ∃ call,
      node.locate? .root [0, 0] = some l ∧ l.context.depth = 1 ∧
      (l.context.vars.get? "carats").isSome ∧ run.callAt? [0, 0] = some call ∧
      call.job.context = l.context := by
  obtain ⟨node, s', hrun, hnode⟩ := Roll.exists_ok_of_any
    (m := (Roller.mk .hoard SplitMix.source 3).resolve "/" .root .hoard)
    (s := .start default 7 (.empty default))
    (p := fun node => (node.locate? .root [0, 0]).any fun l =>
      l.context.depth = 1 && (l.context.vars.get? "carats").isSome) (by decide +kernel)
  obtain ⟨l, hlocate, hl⟩ := (Option.any_eq_true _ _).1 hnode
  obtain ⟨hdepth, hcarats⟩ : l.context.depth = 1 ∧ (l.context.vars.get? "carats").isSome := by
    simpa using hl
  obtain ⟨⟨run⟩, hcalls⟩ := callAt?_context_of_locate? _ "/" .root .hoard _ s' node hrun
  rcases hcalls run [0, 0] l hlocate with ⟨call, hcall, hcontext, _⟩ | ⟨_, hcut⟩
  · exact ⟨node, s', l, run, call, hlocate, hdepth, hcarats, hcall, hcontext⟩
  · -- The gem lies well within the limit.
    have hbeyond : (3 : Int) + 1 < l.context.depth := hcut.2
    omega

end Roller
end RandomTables
