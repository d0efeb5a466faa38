import RandomTables.Proofs.Outcome.Below
import RandomTables.Proofs.Roller.Call

/-!
# The depth at which nodes are rolled

A run makes further calls: all the jobs that were carried out for it, inputs and extra text
included. Every node of an outcome that is no leaf was rolled by one of them, and the depth of that
call is the depth of the root and the number of levels below it. References are rolled one level
below the definition they stand in and only within the limit, so no call is made more than one level
beyond it.
-/
namespace RandomTables

namespace Job

def nodes : (j : Job) → j.Yield → List Node
  | reference .., node => [node]
  | children .., found => found
  | siblings .., found => found
  | row .., found => (found.map RowRoll.nested).getD []
  | rows .., found => found.flatMap RowRoll.nested
  | extra .., found => found.2
  | repeats .., found => found.flatten

/-- The depth at which the nodes of a job are rolled: that of a definition's references is one
level below the definition's own. -/
def nodeDepth : Job → Int
  | reference _ context _ => context.depth
  | siblings _ context _ => context.depth
  | j => j.context.depth + 1

end Job

namespace Run
variable {r : Roller} {j : Job} {s s' : RollState} {a : j.Yield}

/-- The calls of a run: its own, and those that were made for it. -/
def calls {j : Job} {s s' : RollState} {a : j.Yield} : Run r j s a s' → List (Call r)
  | run@(.table _ inputsRun rowsRun extraRun) =>
    run.call :: (inputsRun.calls ++ rowsRun.calls ++ extraRun.calls)
  | run@(.bundle _ repeatsRun) => run.call :: repeatsRun.calls
  | run@(.within _ siblingsRun) => run.call :: siblingsRun.calls
  | run@(.cons first others) => run.call :: (first.calls ++ others.calls)
  | run@(.found _ _ _ nestedRun) => run.call :: nestedRun.calls
  | run@(.stopped first) => run.call :: first.calls
  | run@(.more first others) => run.call :: (first.calls ++ others.calls)
  | run@(.extra _ _ nodesRun) => run.call :: nodesRun.calls
  | run@(.again first others) => run.call :: (first.calls ++ others.calls)
  | run => [run.call]
termination_by structural run => run

/-- In the course of the run a reference was rolled at this depth and came to this node. -/
def RolledAt (run : Run r j s a s') (depth : Int) (node : Node) : Prop :=
  ∃ directory context ref t t', ∃ nodeRun : Run r (.reference directory context ref) t node t',
    nodeRun.call ∈ run.calls ∧ context.depth = depth

theorem call_mem_calls (run : Run r j s a s') : run.call ∈ run.calls := by
  cases run <;> exact List.mem_cons_self ..

theorem rolledAt_self {directory : Text} {context : Context} {ref : Reference} {node : Node}
    (run : Run r (.reference directory context ref) s node s') :
    run.RolledAt context.depth node :=
  ⟨directory, context, ref, s, s', run, run.call_mem_calls, rfl⟩

/-- What was rolled in a part of a run was rolled in the run. -/
theorem RolledAt.of_part {k : Job} {t t' : RollState} {b : k.Yield} {part : Run r k t b t'}
    {run : Run r j s a s'} {depth : Int} {node : Node} (h : part.RolledAt depth node)
    (hpart : ∀ call ∈ part.calls, call ∈ run.calls) : run.RolledAt depth node := by
  obtain ⟨directory, context, ref, u, u', nodeRun, hmem, hdepth⟩ := h
  exact ⟨directory, context, ref, u, u', nodeRun, hpart _ hmem, hdepth⟩

/-! ## Where nodes were rolled -/

/-- Every node that a job comes to, and every node below it, is a leaf or was rolled in the run, one
level deeper for each level that it lies below. -/
theorem rolledAt_of_below (run : Run r j s a s') {node : Node} (hnode : node ∈ j.nodes a)
    {level : Nat} {sub : Node} (hsub : node.Below level sub) (hleaf : sub.isLeaf = false) :
    run.RolledAt (j.nodeDepth + level) sub := by
  induction run generalizing node level with
  | leaf hget =>
    obtain rfl := List.mem_singleton.1 hnode
    simp [Node.isLeaf_of_below_leaf hsub] at hleaf
  | @table directory context ref t _ _ _ _ _ _ _ hget inputsRun rowsRun extraRun inputs rows
      extra =>
    obtain rfl := List.mem_singleton.1 hnode
    cases hsub with
    | self => simpa [Job.nodeDepth] using rolledAt_self (.table hget inputsRun rowsRun extraRun)
    | @child _ _ _ level hchild hsub =>
      -- The children of a table are rolled one level below it, wherever they stand in it.
      have hdepth : context.depth + ((level + 1 : Nat) : Int) = context.depth + 1 + level := by
        omega
      change RolledAt _ (context.depth + _) _
      rw [hdepth]
      rcases Node.mem_children_table_iff.1 hchild with hinput | ⟨row, hrow, hnested⟩ | hextra
      · exact (inputs hinput hsub).of_part fun call hcall =>
          List.mem_cons_of_mem _ (List.mem_append_left _ (List.mem_append_left _ hcall))
      · exact (rows (List.mem_flatMap.2 ⟨row, hrow, hnested⟩) hsub).of_part fun call hcall =>
          List.mem_cons_of_mem _ (List.mem_append_left _ (List.mem_append_right _ hcall))
      · exact (extra hextra hsub).of_part fun call hcall =>
          List.mem_cons_of_mem _ (List.mem_append_right _ hcall)
  | @bundle directory context ref bundle _ _ _ hget repeatsRun repeats =>
    obtain rfl := List.mem_singleton.1 hnode
    cases hsub with
    | self => simpa [Job.nodeDepth] using rolledAt_self (.bundle hget repeatsRun)
    | @child _ _ _ level hchild hsub =>
      have hdepth : context.depth + ((level + 1 : Nat) : Int) = context.depth + 1 + level := by
        omega
      change RolledAt _ (context.depth + _) _
      rw [hdepth]
      exact (repeats hchild hsub).of_part fun call hcall => List.mem_cons_of_mem _ hcall
  | beyond hdepth =>
    obtain ⟨ref, _, rfl⟩ := List.mem_map.1 hnode
    simp [Node.isLeaf_of_below_leaf hsub] at hleaf
  | within hdepth siblingsRun siblings =>
    exact (siblings hnode hsub).of_part fun call hcall => List.mem_cons_of_mem _ hcall
  | nil | gaveUp _ | missing _ _ | noRows | stopped _ _ | noExtra _ | noRepeats => cases hnode
  | cons first others ihFirst ihOthers =>
    rcases List.mem_cons.1 hnode with rfl | hnode
    · exact (ihFirst (List.mem_singleton_self _) hsub).of_part fun call hcall =>
        List.mem_cons_of_mem _ (List.mem_append_left _ hcall)
    · exact (ihOthers hnode hsub).of_part fun call hcall =>
        List.mem_cons_of_mem _ (List.mem_append_right _ hcall)
  | found hfresh hfind hresolve nestedRun nested =>
    exact (nested hnode hsub).of_part fun call hcall => List.mem_cons_of_mem _ hcall
  | more first others ihFirst ihOthers =>
    obtain ⟨row, hrow, hnested⟩ := List.mem_flatMap.1 hnode
    rcases List.mem_cons.1 hrow with rfl | hrow
    · exact (ihFirst hnested hsub).of_part fun call hcall =>
        List.mem_cons_of_mem _ (List.mem_append_left _ hcall)
    · exact (ihOthers (List.mem_flatMap.2 ⟨row, hrow, hnested⟩) hsub).of_part fun call hcall =>
        List.mem_cons_of_mem _ (List.mem_append_right _ hcall)
  | extra hextra hresolve nodesRun nodes =>
    exact (nodes hnode hsub).of_part fun call hcall => List.mem_cons_of_mem _ hcall
  | again first others ihFirst ihOthers =>
    rcases List.mem_append.1 hnode with hnode | hnode
    · exact (ihFirst hnode hsub).of_part fun call hcall =>
        List.mem_cons_of_mem _ (List.mem_append_left _ hcall)
    · exact (ihOthers hnode hsub).of_part fun call hcall =>
        List.mem_cons_of_mem _ (List.mem_append_right _ hcall)

/-- No call is made more than one level beyond the limit, unless the run itself starts there. -/
theorem depth_le_of_mem_calls (run : Run r j s a s') {call : Call r} (h : call ∈ run.calls) :
    call.job.context.depth ≤ max j.context.depth (r.maxDepth + 1) := by
  induction run with
  | leaf _ | beyond _ | nil | gaveUp _ | missing _ _ | noRows | noExtra _ | noRepeats =>
    obtain rfl := List.mem_singleton.1 h
    exact Int.le_max_left ..
  | table hget inputsRun rowsRun extraRun inputs rows extra =>
    rcases List.mem_cons.1 h with rfl | h
    · exact Int.le_max_left ..
    · rcases List.mem_append.1 h with h | h
      · rcases List.mem_append.1 h with h | h
        · exact inputs h
        · exact rows h
      · exact extra h
  | bundle _ _ ih | found _ _ _ _ ih | stopped _ ih | extra _ _ _ ih =>
    rcases List.mem_cons.1 h with rfl | h
    · exact Int.le_max_left ..
    · exact ih h
  | cons _ _ ihFirst ihOthers | more _ _ ihFirst ihOthers | again _ _ ihFirst ihOthers =>
    rcases List.mem_cons.1 h with rfl | h
    · exact Int.le_max_left ..
    · rcases List.mem_append.1 h with h | h
      · exact ihFirst h
      · exact ihOthers h
  | @within directory context stored _ _ _ _ hdepth siblingsRun ih =>
    rcases List.mem_cons.1 h with rfl | h
    · exact Int.le_max_left ..
    · -- Within the limit one level deeper is one level beyond it at most.
      have hle := ih h
      have hchild : (context.child stored).depth = context.depth + 1 := context.child_depth stored
      simp only [Job.context, hchild] at hle ⊢
      omega

/-- No reference is rolled more than one level beyond the limit, unless the run starts there. -/
theorem RolledAt.depth_le {run : Run r j s a s'} {depth : Int} {node : Node}
    (h : run.RolledAt depth node) : depth ≤ max j.context.depth (r.maxDepth + 1) := by
  obtain ⟨directory, context, ref, t, t', nodeRun, hmem, rfl⟩ := h
  exact run.depth_le_of_mem_calls hmem

end Run
end RandomTables
