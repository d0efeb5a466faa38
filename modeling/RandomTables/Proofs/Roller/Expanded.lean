import RandomTables.Outcome.Text
import RandomTables.Proofs.Roller.Depth
import RandomTables.Proofs.Roller.Reachable
import RandomTables.Proofs.Template.Numbered

/-!
# References in the text of an outcome

Resolved text points by numbers to the nodes that its references came to. In every outcome that can
be reached the numbers fit the nodes: read from left to right they are those of all the nodes, in
their order. So no number points nowhere, and the text of each node is written once.
-/
namespace RandomTables

/-- Resolved text is written as this text, which has what each of these nodes came to in it. The
references are numbered like the nodes, none points beyond them, and where references take up what
the nodes came to, one after another, the text comes out and nothing is left over. -/
structure Resolved.Expands (pieces : List Resolved) (nodes : List Node) (text : Text) : Prop where
  indices_eq : indicesOf pieces = List.range nodes.length
  index_lt : ∀ index ∈ indicesOf pieces, index < nodes.length
  pour_eq : pourAll (nodes.map Node.inlineText) pieces = some (text, [])

theorem Resolved.expands_of_indices {pieces : List Resolved} {nodes : List Node}
    (h : indicesOf pieces = List.range nodes.length) :
    Expands pieces nodes (writeAll (inlineTexts nodes) pieces) := by
  refine ⟨h, ?_, ?_⟩
  · intro index hindex
    rw [h] at hindex
    exact List.mem_range.1 hindex
  · rw [inlineTexts_eq_map]
    exact pourAll_eq_some (by rw [h, List.length_map])

theorem RowRoll.text_found (row : RowContent) :
    (found row).text = Resolved.writeAll (inlineTexts row.nested) row.text := by
  cases row
  rw [text]

/-- The references of a row are numbered like the nodes in it. -/
def RowRoll.Numbered : RowRoll → Prop
  | missing _ => True
  | found row => Resolved.indicesOf row.text = List.range row.nested.length

/-- The references of every text of a table are numbered like the nodes that belong to it. -/
structure TableRoll.Numbered (roll : TableRoll) : Prop where
  rows : ∀ row ∈ roll.rows, row.Numbered
  extra : Resolved.indicesOf roll.extra = List.range roll.extraNodes.length

/-- The references of every text of a node are numbered; only tables have such text. -/
def Node.Numbered : Node → Prop
  | table roll => roll.Numbered
  | _ => True

theorem TableRoll.Numbered.set {roll : TableRoll} (h : roll.Numbered) {row : RowRoll}
    (hrow : row.Numbered) (index : Nat) :
    TableRoll.Numbered { roll with rows := roll.rows.set index row } := by
  refine ⟨?_, h.extra⟩
  intro other hother
  rcases List.mem_or_eq_of_mem_set hother with hother | rfl
  · exact h.rows other hother
  · exact hrow

/-- Numbers do not tell one node from another. -/
theorem Node.numbered_exchangeable : Exchangeable Numbered where
  table {roll index number row old new} hrow _ _ h := by
    have hnumbered : (RowRoll.found row).Numbered := h.rows _ (List.mem_of_getElem? hrow)
    refine TableRoll.Numbered.set h ?_ index
    rw [RowRoll.Numbered, List.length_set]
    exact hnumbered
  bundle _ _ _ _ := trivial

namespace Run
variable {r : Roller} {s s' : RollState}

theorem numbered_of_row {b : Batch} {ignored : List Int} {row : RowRoll}
    (run : Run r (.row b ignored) s (some row) s') : row.Numbered := by
  cases run with
  | missing _ _ => trivial
  | found _ _ hresolve nestedRun =>
    have hlength := nestedRun.answers_of_children.length_eq
    rw [RowRoll.Numbered, Template.indices_of_resolve hresolve, hlength]

theorem numbered_of_rows {b : Batch} {ignored : List Int} {count : Nat} {rows : List RowRoll}
    (run : Run r (.rows b ignored count) s rows s') : ∀ row ∈ rows, row.Numbered := by
  intro row hrow
  obtain ⟨_, _, _, ⟨rowRun⟩⟩ := run.row_of_mem hrow
  exact rowRun.numbered_of_row

theorem indices_of_extra {context : Context} {table : Table} {inputs : Bindings (List Text)}
    {extra : List Resolved × List Node} (run : Run r (.extra context table inputs) s extra s') :
    Resolved.indicesOf extra.1 = List.range extra.2.length := by
  cases run with
  | noExtra _ => rfl
  | extra _ hresolve nodesRun =>
    have hlength := nodesRun.answers_of_children.length_eq
    rw [Template.indices_of_resolve hresolve, hlength]

end Run

namespace Roller

/-- References stay numbered, whatever is rolled again. -/
theorem numbered_lasts : Lasting (fun _ => True) Node.Numbered where
  leaf _ _ := trivial
  made _ _ hmade := by
    cases hmade with
    | table _ rowsRun extraRun => exact ⟨rowsRun.numbered_of_rows, extraRun.indices_of_extra⟩
    | bundle _ => trivial
  row index _ _ hold rowsRun :=
    TableRoll.Numbered.set hold (rowsRun.numbered_of_rows _ (List.mem_cons_self ..)) index
  nodes _ _ _ _ _ := trivial
  exchange := Node.numbered_exchangeable

/-- In every outcome that can be reached, the text of each row and the extra text of each table have
references to all the nodes that belong to them, once each and in order, and have the text of every
one of these nodes in them once. -/
theorem references_of_reachable (root : Node) (hroot : Reachable root) (level : Nat)
    (roll : TableRoll) (hroll : root.Below level (.table roll)) :
    (∀ row, .found row ∈ roll.rows →
      Resolved.Expands row.text row.nested (RowRoll.found row).text) ∧
    Resolved.Expands roll.extra roll.extraNodes
      (Resolved.writeAll (inlineTexts roll.extraNodes) roll.extra) := by
  have hnumbered : roll.Numbered :=
    numbered_lasts.throughout_of_reachable hroot.reachableBy level _ hroll
  refine ⟨?_, Resolved.expands_of_indices hnumbered.extra⟩
  intro row hrow
  rw [RowRoll.text_found]
  exact Resolved.expands_of_indices (hnumbered.rows _ hrow)

end Roller

/-- A table with references inside of blocks, behind them, and in its extra text. -/
def Registry.cave : Registry :=
  .ofDefinitions "/" [
    .table ⟨"/cave", "Cave", .dice 1 1 false,
      [⟨[.percent 100 "" [.reference (.toPath "/gem") none, .plain " and "],
          .percent 100 "" [.reference (.toPath "/bat") none],
          .reference (.toPath "/gem") none], .single 1, "1|gems"⟩],
      .empty, some [.plain "below ", .reference (.toPath "/bat") none]⟩,
    .table ⟨"/gem", "Gem", .dice 1 1 false,
      [⟨[.plain "an opal"], .single 1, "1|an opal"⟩], .empty, none⟩,
    .table ⟨"/bat", "Bat", .dice 1 1 false,
      [⟨[.plain "a bat"], .single 1, "1|a bat"⟩], .empty, none⟩]

namespace Roller

/-- The first block of the cave is selected and the second one is not, so that the reference behind
them has the second number. What it points to is rolled again. -/
theorem cave_expands :
    ∃ root s roll node t table row,
      ((Roller.mk .cave SplitMix.source 3).resolve "/" .root (.toPath "/cave")).runFrom
        (.start default 7 (.empty default)) = (.ok root, s) ∧
      (Roller.mk .cave SplitMix.source 3).reroll [0, 1] root .root = .ok roll ∧
      roll.runFrom (.start default 0 (.empty default)) = (.ok node, t) ∧
      node.Below 0 (.table table) ∧ .found row ∈ table.rows ∧
      Resolved.Expands row.text row.nested "an opal and an opal" ∧
      Resolved.Expands table.extra table.extraNodes "below a bat" := by
  obtain ⟨root, s, hroot, hany⟩ := Roll.exists_ok_of_any
    (m := (Roller.mk .cave SplitMix.source 3).resolve "/" .root (.toPath "/cave"))
    (s := .start default 7 (.empty default))
    (p := fun root => ((Roller.mk .cave SplitMix.source 3).reroll [0, 1] root .root).toOption.any
      fun roll => (roll.runFrom (.start default 0 (.empty default))).1.toOption.any fun node =>
        match node with
        | .table table =>
          (table.rows.any fun row =>
            match row with
            | .found _ => row.text = "an opal and an opal"
            | .missing _ => false) &&
          Resolved.writeAll (inlineTexts table.extraNodes) table.extra = "below a bat"
        | _ => false)
    (by decide +kernel)
  cases hreroll : (Roller.mk .cave SplitMix.source 3).reroll [0, 1] root .root with
  | error fault =>
    rw [hreroll] at hany
    cases hany
  | ok roll =>
    rw [hreroll] at hany
    obtain ⟨node, t, hnode, hany⟩ := Roll.exists_ok_of_any hany
    cases node with
    | table table =>
      obtain ⟨hrows, hextra⟩ := Bool.and_eq_true_iff.1 hany
      obtain ⟨row, hrow, htext⟩ := List.any_eq_true.1 hrows
      cases row with
      | found row =>
        have hreachable : Reachable (.table table) :=
          .rerolled _ _ _ (.resolved _ _ _ _ hroot) hreroll hnode
        obtain ⟨hexpands, hbelow⟩ := references_of_reachable _ hreachable 0 table (.self _)
        have hexpands := hexpands row hrow
        rw [of_decide_eq_true htext] at hexpands
        rw [of_decide_eq_true hextra] at hbelow
        exact ⟨root, s, roll, _, t, table, row, hroot, hreroll, hnode, .self _, hrow, hexpands,
          hbelow⟩
      | missing total => cases htext
    | bundle roll => cases hany
    | leaf ref path => cases hany

end Roller
end RandomTables
