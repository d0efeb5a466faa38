import RandomTables.Proofs.IndexPath.Lens
import RandomTables.Proofs.Roller.Call
import RandomTables.Proofs.Roller.InGroups

/-!
# Rolling a part again with its own dice

While a part of an outcome was rolled, its dice were logged one after another, with no others in
between. Rolling the part again from the state in which it was rolled comes to the same part; and so
does rolling it again later, with a replay of those dice. For a row of a table with unique totals
this is not quite the same computation, because the totals of later rows are ignored as well.
-/
namespace RandomTables
open Roll

/-! ## The part of the log that a call wrote -/

/-- From one state on, events have been logged up to the other one. -/
def RollState.LeadsTo (s t : RollState) : Prop := ∃ bodies, s.Logs bodies t

namespace RollState.LeadsTo
variable {s t u : RollState}

theorem refl (s : RollState) : s.LeadsTo s := ⟨[], .refl s⟩

theorem trans (h : s.LeadsTo t) (h' : t.LeadsTo u) : s.LeadsTo u := by
  obtain ⟨bodies, hlogs⟩ := h
  obtain ⟨more, hlogs'⟩ := h'
  exact ⟨bodies ++ more, hlogs.trans hlogs'⟩

theorem logEvent (s : RollState) (body : EventBody) :
    s.LeadsTo { s with log := s.log.add s.now body } := ⟨[body], .logEvent s body⟩

theorem stream (h : s.LeadsTo t) : ∃ dice, t.log.stream = s.log.stream ++ dice := by
  obtain ⟨bodies, hlogs⟩ := h
  exact ⟨_, hlogs.stream⟩

end RollState.LeadsTo

theorem Roll.Reproducible.leadsTo {α : Type} {m : Source → Roll α} (hm : Reproducible m)
    {source : Source} (hsource : source.Bounded) {s s' : RollState} {a : α}
    (h : (m source).runFrom s = (.ok a, s')) : s.LeadsTo s' := by
  obtain ⟨bodies, hlogs, _⟩ := hm source hsource h
  exact ⟨bodies, hlogs⟩

namespace Roller

/-- Every job draws in groups. -/
theorem perform_inGroups (r : Roller) (j : Job) :
    InGroups fun source => (r.drawingFrom source).perform j := by
  cases j with
  | reference directory context ref => exact r.resolve_inGroups directory context ref
  | children directory context stored refs =>
    exact r.children_inGroups context directory context stored refs
  | siblings directory context refs =>
    exact rollSiblings_inGroups (r.resolve_inGroups directory) context refs
  | row batch ignored =>
    exact Batch.rollNext_inGroups (r.children_inGroups batch.context) batch ignored
  | rows batch ignored count =>
    exact Batch.rollRows_inGroups (r.children_inGroups batch.context) batch ignored count
  | extra context table inputs =>
    exact r.rollExtra_inGroups (r.children_inGroups context) context table inputs
  | repeats context bundle count =>
    exact rollRepeats_inGroups (r.children_inGroups context) context bundle count

end Roller

namespace Run
variable {r : Roller} {j : Job} {s s' : RollState} {a : j.Yield}

theorem leadsTo (hsource : r.source.Bounded) (run : Run r j s a s') : s.LeadsTo s' :=
  (r.perform_inGroups j).reproducible.leadsTo hsource (Roller.succeeds_of_run run)

/-- A call takes place between the ends of the run that it is a part of. -/
theorem callAt?_between (hsource : r.source.Bounded) (run : Run r j s a s') {path : IndexPath}
    {call : Call r} (h : run.callAt? path = some call) :
    s.LeadsTo call.before ∧ call.after.LeadsTo s' := by
  fun_induction Run.callAt? run path with
  | case1 s s' _ a run =>
    obtain rfl := Option.some.inj h
    exact ⟨.refl s, .refl s'⟩
  | case2 =>
    rename_i inputsRun rowsRun extraRun i rest ih
    obtain ⟨hbefore, hafter⟩ := ih h
    exact ⟨(inputsRun.leadsTo hsource).trans hbefore, hafter.trans (extraRun.leadsTo hsource)⟩
  | case3 =>
    rename_i ih
    exact ih h
  | case4 =>
    rename_i ih
    exact ih h
  | case5 =>
    rename_i first others rest ih
    obtain ⟨hbefore, hafter⟩ := ih h
    exact ⟨hbefore, hafter.trans (others.leadsTo hsource)⟩
  | case6 =>
    rename_i first others i rest _ ih
    obtain ⟨hbefore, hafter⟩ := ih h
    exact ⟨(first.leadsTo hsource).trans hbefore, hafter⟩
  | case7 =>
    rename_i hfresh hfind hresolve nestedRun i rest ih
    obtain ⟨hbefore, hafter⟩ := ih h
    have hfresh' := (Batch.rollFresh_onlyDice ..).inGroups.reproducible.leadsTo hsource hfresh
    have hresolve' := (Template.resolve_onlyDice ..).inGroups.reproducible.leadsTo hsource hresolve
    exact ⟨(hfresh'.trans hresolve').trans hbefore, hafter.trans (.logEvent _ _)⟩
  | case8 =>
    rename_i first others rest ih
    obtain ⟨hbefore, hafter⟩ := ih h
    exact ⟨hbefore, hafter.trans (others.leadsTo hsource)⟩
  | case9 =>
    rename_i first others i rest _ ih
    obtain ⟨hbefore, hafter⟩ := ih h
    exact ⟨(first.leadsTo hsource).trans hbefore, hafter⟩
  | case10 =>
    rename_i first others rest ih
    obtain ⟨hbefore, hafter⟩ := ih h
    exact ⟨hbefore, hafter.trans (others.leadsTo hsource)⟩
  | case11 =>
    rename_i first others i rest _ ih
    obtain ⟨hbefore, hafter⟩ := ih h
    exact ⟨(first.leadsTo hsource).trans hbefore, hafter⟩
  | case12 => cases h

end Run

/-! ## Rolling the part again from where it was rolled -/

namespace Roller
variable {r : Roller}

/-- The totals that are taken when a row is rolled again are those of all other rows. -/
theorem mem_takenTotals_iff {roll : TableRoll} {index : Nat} {total : Int} :
    total ∈ takenTotals roll index ↔ roll.ref.instructions.unique ∧
      ∃ i row, i ≠ index ∧ roll.rows[i]? = some row ∧ row.total = total := by
  unfold takenTotals
  cases roll.ref.instructions.unique with
  | false => simp
  | true =>
    simp only [if_true, true_and, List.mem_map, List.mem_eraseIdx_iff_getElem?]
    constructor
    · rintro ⟨row, ⟨i, hne, hrow⟩, htotal⟩
      exact ⟨i, row, hne, hrow, htotal⟩
    · rintro ⟨i, row, hne, hrow, htotal⟩
      exact ⟨row, ⟨i, hne, hrow⟩, htotal⟩

/-- A row that is rolled again from where it was rolled is the same row. The totals of the rows
after it are ignored now, which makes no difference because the row has none of them. -/
theorem rerollRow_of_run {context : Context} {roll : TableRoll} {count : Nat}
    {s s' t t' : RollState}
    (rowsRun : Run r (.rows (.of context roll.ref roll.table roll.inputs)
      (roll.ref.instructions.ignored context) count) s roll.rows s')
    {index : Nat} {row : RowRoll} (hrow : roll.rows[index]? = some row)
    (rowRun : Run r (.row (.of context roll.ref roll.table roll.inputs)
      (Batch.ignoredBefore (.of context roll.ref roll.table roll.inputs)
        (roll.ref.instructions.ignored context) roll.rows index)) t (some row) t') :
    (r.rerollRow context roll index row roll.table).runFrom t = (.ok row, t') := by
  have hsubset : Batch.ignoredBefore (.of context roll.ref roll.table roll.inputs)
      (roll.ref.instructions.ignored context) roll.rows index ⊆
        roll.ref.instructions.ignored context ++ takenTotals roll index := by
    intro total htotal
    rw [List.mem_append, mem_takenTotals_iff]
    rcases Batch.mem_ignoredBefore_iff.1 htotal with htotal | ⟨hunique, i, other, hi, hother, heq⟩
    · exact .inl htotal
    · exact .inr ⟨hunique, i, other, by omega, hother, heq⟩
  have hnew : row.total ∉ roll.ref.instructions.ignored context ++ takenTotals roll index := by
    rw [List.mem_append, mem_takenTotals_iff]
    rintro (htotal | ⟨hunique, i, other, hne, hother, heq⟩)
    · exact rowsRun.total_not_mem_ignoredBefore hrow (Batch.mem_ignoredBefore_iff.2 (.inl htotal))
    · exact rowsRun.total_ne_total hunique hne hother hrow heq
  have hnext := succeeds_of_run (rowRun.ofSubset hsubset hnew)
  refine runFrom_bind_eq_ok_iff.2 ⟨[row], t', ?_, rfl⟩
  exact (runFrom_bind_of_ok hnext).trans rfl

/-- What a reference came to, unless it is a leaf, came from a definition under the path of the
node. -/
theorem rollDefinition_of_run {directory : Text} {context : Context} {ref : Reference} {node : Node}
    {s s' : RollState} (run : Run r (.reference directory context ref) s node s')
    (hnode : ∀ ref path, node ≠ .leaf ref path) :
    ∃ d, r.registry.get? node.path = some d ∧
      (r.rollDefinition (r.children context) context node.ref d).runFrom s = (.ok node, s') := by
  have hrun := succeeds_of_run run
  cases run with
  | leaf hget => exact absurd rfl (hnode _ _)
  | table hget inputsRun rowsRun extraRun =>
    simp only [perform, resolve, rollReference, hget] at hrun
    exact ⟨_, Registry.get?_path_of_get?_eq_some hget, hrun⟩
  | bundle hget repeatsRun =>
    simp only [perform, resolve, rollReference, hget] at hrun
    exact ⟨_, Registry.get?_path_of_get?_eq_some hget, hrun⟩

/-- The target of a call comes to the same part when it is rolled again from the state in which the
call was made. -/
theorem rerollTarget_of_rolls {call : Call r} {l : Location} (h : Rolls r call l)
    (htarget : ∀ ref path, l.target ≠ .node (.leaf ref path)) :
    ∃ roll, r.rerollTarget l.context l.target = .ok roll ∧
      roll.runFrom call.before = (.ok l.target.piece, call.after) := by
  cases h with
  | node nodeRun =>
    obtain ⟨d, hget, hrun⟩ := rollDefinition_of_run nodeRun fun ref path hleaf =>
      htarget ref path (congrArg Target.node hleaf)
    simp only [rerollTarget, hget]
    exact ⟨_, rfl, runFrom_map_eq_ok_iff.2 ⟨_, hrun, rfl⟩⟩
  | row hget rowsRun hrow rowRun =>
    simp only [rerollTarget, hget]
    exact ⟨_, rfl, runFrom_map_eq_ok_iff.2 ⟨_, rerollRow_of_run rowsRun hrow rowRun, rfl⟩⟩
  | nodes hget nodesRun =>
    simp only [rerollTarget, hget]
    exact ⟨_, rfl, runFrom_map_eq_ok_iff.2 ⟨_, succeeds_of_run nodesRun, rfl⟩⟩

/-- An outcome comes to itself when a part of it is rolled again from the state in which the part
was rolled. -/
theorem reroll_of_rolls {call : Call r} {context : Context} {node : Node} {path : IndexPath}
    {l : Location} (hlocate : node.locate? context path = some l) (h : Rolls r call l)
    (htarget : ∀ ref path, l.target ≠ .node (.leaf ref path)) :
    ∃ roll, r.reroll path node context = .ok roll ∧ ∃ t,
      roll.runFrom call.before = (.ok node, t) ∧ t.log.stream = call.after.log.stream := by
  obtain ⟨roll, htargetRoll, hroll⟩ := rerollTarget_of_rolls h htarget
  refine ⟨_, by simp only [reroll, hlocate, htargetRoll]; rfl, { call.after with
    log := call.after.log.add call.after.now
      (.reroll path l.target.path l.target.kindName) }, ?_, ?_⟩
  · rw [runFrom_bind_of_ok hroll, Node.replace?_of_locate? hlocate]
    rfl
  · exact (RollState.Logs.logEvent call.after _).stream.trans (List.append_nil _)

/-- While a part of an outcome was rolled, its dice were drawn one after another; and rolling the
part again with a replay of these dice comes to the outcome there was, uses up all of them, and
draws nothing else. The dice may come from any source that keeps to the range, as the mixing source
and every replay do. -/
theorem reroll_own_dice (r : Roller) (hsource : r.source.Bounded) (directory : Text)
    (context : Context) (ref : Reference) (s s' : RollState) (node : Node)
    (h : (r.resolve directory context ref).runFrom s = (.ok node, s')) (path : IndexPath)
    (l : Location) (hlocate : node.locate? context path = some l)
    (htarget : ∀ ref path, l.target ≠ .node (.leaf ref path)) :
    Nonempty (Run r (.reference directory context ref) s node s') ∧
      ∀ run : Run r (.reference directory context ref) s node s',
        ∃ call earlier dice later, run.callAt? path = some call ∧
          call.job.piece? call.outcome = some l.target.piece ∧
          call.before.log.stream = s.log.stream ++ earlier ∧
          call.after.log.stream = call.before.log.stream ++ dice ∧
          s'.log.stream = call.after.log.stream ++ later ∧
          ∀ (own : Int) (now : Timestamp) (log : RunLog), ∃ roll t,
            (r.drawingFrom (Replay.start own dice.toArray).source).reroll path node context =
              .ok roll ∧
            roll.runFrom (.start now 0 log) = (.ok node, t) ∧ t.seed = dice.length ∧
            ((Replay.start own dice.toArray).noteAll t.requests.toList).overruns = 0 := by
  refine ⟨succeeds_iff_run.1 h, ?_⟩
  intro run
  rcases run.accounts_of_locate? hlocate with ⟨call, hcall, hrolls⟩ | ⟨_, ⟨ref', path', hleaf⟩, _⟩
  · have hpiece : call.job.piece? call.outcome = some l.target.piece := by
      cases hrolls <;> rfl
    obtain ⟨hbefore, hafter⟩ := run.callAt?_between hsource hcall
    obtain ⟨earlier, hearlier⟩ := hbefore.stream
    obtain ⟨later, hlater⟩ := hafter.stream
    obtain ⟨rollOnce, hrollOnce, t, ht, hstream⟩ := reroll_of_rolls hlocate hrolls htarget
    rcases r.reroll_reproducible path node context with ⟨fault, hfault⟩ | ⟨roll, hroll, hok⟩
    · have herror : r.reroll path node context = .error fault := hfault r.source
      rw [hrollOnce] at herror
      cases herror
    · have hsame : r.reroll path node context = .ok (roll r.source) := hok r.source
      rw [hrollOnce] at hsame
      obtain rfl := Except.ok.inj hsame
      obtain ⟨bodies, hlogs, hagain⟩ := hroll r.source hsource ht
      -- Rolling the part again logs the same dice as rolling it did.
      have hdice : call.after.log.stream = call.before.log.stream ++ EventBody.rollsOf bodies := by
        rw [← hstream, hlogs.stream]
      refine ⟨call, earlier, EventBody.rollsOf bodies, later, hcall, hpiece, hearlier, hdice,
        hlater, ?_⟩
      intro own now log
      obtain ⟨t', ht', hredoes⟩ := hagain (.start own (EventBody.rollsOf bodies).toArray)
        (.start now 0 log) (Replay.start_holds_all own _)
      obtain ⟨asked, hasked, hserved⟩ := hredoes.asked
      refine ⟨_, t', hok _, ht', ?_, ?_⟩
      · rw [hredoes.seed]
        exact Int.zero_add _
      · refine (Replay.overruns_noteAll fun q hq => hserved q ?_).trans rfl
        rw [hasked] at hq
        simpa [RollState.start] using hq
  · exact absurd hleaf (htarget ref' path')

/-- The second row of a hoard came up after a total that was ignored, and is rolled again with its
own dice. -/
theorem hoard_reroll_own_dice :
    ∃ node s' l, ((Roller.mk .hoard SplitMix.source 3).resolve "/" .root .hoard).runFrom
        (.start default 0 (.empty default)) = (.ok node, s') ∧
      node.locate? .root [1] = some l ∧ l.target.index? = some 1 ∧
      ∃ (dice : List Int) (roll : Roll Node) (t : RollState),
        (Roller.mk .hoard (Replay.start 0 dice.toArray).source 3).reroll [1] node .root = .ok roll ∧
        roll.runFrom (.start default 0 (.empty default)) = (.ok node, t) ∧ t.seed = dice.length ∧
        ((Replay.start 0 dice.toArray).noteAll t.requests.toList).overruns = 0 := by
  obtain ⟨node, s', hrun, hnode⟩ := Roll.exists_ok_of_any
    (m := (Roller.mk .hoard SplitMix.source 3).resolve "/" .root .hoard)
    (s := .start default 0 (.empty default))
    (p := fun node => (node.locate? .root [1]).any fun l => l.target.index? = some 1)
    (by decide +kernel)
  obtain ⟨l, hlocate, hl⟩ := (Option.any_eq_true _ _).1 hnode
  have hindex : l.target.index? = some 1 := by simpa using hl
  have htarget : ∀ ref path, l.target ≠ .node (.leaf ref path) := by
    intro ref path hleaf
    rw [hleaf] at hindex
    cases hindex
  obtain ⟨⟨run⟩, hreroll⟩ := reroll_own_dice _ SplitMix.source_bounded "/" .root .hoard _ s' node
    hrun [1] l hlocate htarget
  obtain ⟨_, _, dice, _, _, _, _, _, _, hagain⟩ := hreroll run
  obtain ⟨roll, t, hroll, ht, hseed, hoverruns⟩ := hagain 0 default (.empty default)
  exact ⟨node, s', l, hrun, hlocate, hindex, dice, roll, t, hroll, ht, hseed, hoverruns⟩

end Roller
end RandomTables
