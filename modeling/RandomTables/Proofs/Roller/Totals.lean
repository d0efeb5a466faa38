import Mathlib.Data.List.InsertIdx
import Mathlib.Data.List.Perm.Basic
import RandomTables.Proofs.Roller.Fresh
import RandomTables.Proofs.Roller.Reachable

/-!
# Totals as the instructions want them

Instructions may ask for unique totals and list totals to ignore. The rows of a table are rolled
with an eye to that; and so is a row that is rolled again, which is why what the instructions want
still holds throughout an outcome after any number of parts of it were rolled again.
-/
namespace RandomTables

/-- The instructions allow rows with these totals: none is a number to ignore, and no two are the
same if they are to be unique. -/
structure Instructions.Allows (i : Instructions) (totals : List Int) : Prop where
  nodup : i.unique → totals.Nodup
  not_ignored : ∀ total ∈ totals, .fixed total ∉ i.ignore

/-- A number on the list of totals to ignore is ignored in every context. -/
theorem Instructions.mem_ignored_of_fixed {i : Instructions} {total : Int}
    (h : .fixed total ∈ i.ignore) (context : Context) : total ∈ i.ignored context :=
  List.mem_map_of_mem h

/-- Another total may take the place of one if it is none of the others. -/
theorem Instructions.Allows.set {i : Instructions} {totals : List Int} (h : i.Allows totals)
    {index : Nat} {total : Int} (hfixed : .fixed total ∉ i.ignore)
    (hother : i.unique → total ∉ totals.eraseIdx index) : i.Allows (totals.set index total) := by
  constructor
  · intro hunique
    rcases Nat.lt_or_ge index totals.length with hlt | hge
    · rw [(List.set_perm_cons_eraseIdx hlt total).nodup_iff, List.nodup_cons]
      exact ⟨hother hunique, (h.nodup hunique).eraseIdx index⟩
    · rw [List.set_eq_of_length_le hge]
      exact h.nodup hunique
  · intro other hmem
    rcases List.mem_or_eq_of_mem_set hmem with hmem | rfl
    · exact h.not_ignored other hmem
    · exact hfixed

/-- The totals of the rows of a table are such as the instructions allow. -/
def Node.TotalsAllowed : Node → Prop
  | table roll => roll.ref.instructions.Allows (roll.rows.map RowRoll.total)
  | _ => True

/-- The totals of a table have nothing to do with the nodes in its rows. -/
theorem Node.totalsAllowed_shallow : Shallow TotalsAllowed where
  table {roll index row} nested hrow h := by
    have htotals : (roll.rows.set index (.found { row with nested })).map RowRoll.total =
        roll.rows.map RowRoll.total := map_set_of_getElem? hrow rfl
    change roll.ref.instructions.Allows (List.map _ _)
    rw [htotals]
    exact h
  bundle repeats h := trivial

namespace Run
variable {r : Roller} {s s' : RollState}

/-- The rows of a table have totals as the instructions want them. -/
theorem allows_of_rows {context : Context} {ref : Reference} {table : Table} {inputs : List Node}
    {count : Nat} {rows : List RowRoll}
    (run : Run r (.rows (.of context ref table inputs) (ref.instructions.ignored context) count)
      s rows s') : ref.instructions.Allows (rows.map RowRoll.total) := by
  constructor
  · intro hunique
    rw [List.Nodup, List.pairwise_map, List.pairwise_iff_getElem]
    intro i j hi hj hlt
    exact run.total_ne_total hunique (Nat.ne_of_lt hlt) (List.getElem?_eq_getElem hi)
      (List.getElem?_eq_getElem hj)
  · intro total hmem hfixed
    obtain ⟨row, hrow, rfl⟩ := List.mem_map.1 hmem
    obtain ⟨index, hindex⟩ := List.getElem?_of_mem hrow
    exact run.total_not_mem_ignoredBefore hindex
      (Batch.mem_ignoredBefore_iff.2 (.inl (Instructions.mem_ignored_of_fixed hfixed context)))

/-- The first row of a batch has a total as the instructions want it. -/
theorem total_of_first {b : Batch} {ignored : List Int} {count : Nat} {row : RowRoll}
    {rest : List RowRoll} (run : Run r (.rows b ignored count) s (row :: rest) s') :
    row.total ∉ ignored := by
  have htotal := run.total_not_mem_ignoredBefore (List.getElem?_cons_zero ..)
  rwa [Batch.ignoredBefore_zero] at htotal

end Run

namespace Roller

/-- Totals stay as the instructions want them, whatever is rolled again. -/
theorem totalsAllowed_lasts : Lasting (fun _ => True) Node.TotalsAllowed where
  leaf _ _ := trivial
  made _ _ hmade := by
    cases hmade with
    | table _ rowsRun _ => exact rowsRun.allows_of_rows
    | bundle _ => trivial
  row {_ context roll _ _ _ _ _} index _ _ hold rowsRun := by
    have htotal := rowsRun.total_of_first
    rw [List.mem_append, not_or] at htotal
    change roll.ref.instructions.Allows (List.map _ _)
    rw [List.map_set]
    refine Instructions.Allows.set hold ?_ fun hunique => ?_
    · exact fun hfixed => htotal.1 (Instructions.mem_ignored_of_fixed hfixed context)
    · simpa [takenTotals, hunique, List.eraseIdx_map] using htotal.2
  nodes _ _ _ _ _ := trivial
  exchange := Node.totalsAllowed_shallow.exchangeable

theorem Reachable.throughout_totalsAllowed {root : Node} (h : Reachable root) :
    root.Throughout Node.TotalsAllowed :=
  totalsAllowed_lasts.throughout_of_reachable h.reachableBy

/-- In every outcome that can be reached, each table has rows with totals as its instructions want
them: different ones if they are to be unique, missing rows included, and none of the numbers to
ignore. -/
theorem totals_of_reachable (root : Node) (hroot : Reachable root) (level : Nat) (roll : TableRoll)
    (hroll : root.Below level (.table roll)) :
    (roll.ref.instructions.unique → (roll.rows.map RowRoll.total).Nodup) ∧
      ∀ row ∈ roll.rows, .fixed row.total ∉ roll.ref.instructions.ignore := by
  have hallowed : roll.ref.instructions.Allows (roll.rows.map RowRoll.total) :=
    hroot.throughout_totalsAllowed level _ hroll
  exact ⟨hallowed.nodup, fun row hrow => hallowed.not_ignored _ (List.mem_map_of_mem hrow)⟩

end Roller

/-- Two different rows of the hoard, neither with a total of two. -/
def Reference.hoardPair : Reference :=
  ⟨"/hoard", { Reference.hoard.instructions with
    repeats := some (.fixed 2)
    ignore := [.fixed 2] }⟩

namespace Roller

/-- The two rows of the hoard are rolled as four and three. Rolled again, from a state that has
nothing to do with the first one, the second row comes to one. -/
theorem hoard_totals :
    ∃ root s roll node t table,
      ((Roller.mk .hoard SplitMix.source 3).resolve "/" .root .hoardPair).runFrom
        (.start default 0 (.empty default)) = (.ok root, s) ∧
      (Roller.mk .hoard SplitMix.source 3).reroll [1] root .root = .ok roll ∧
      roll.runFrom (.start default 0 (.empty default)) = (.ok node, t) ∧
      node.Below 0 (.table table) ∧ table.rows.map RowRoll.total = [4, 1] ∧
      (table.ref.instructions.unique → (table.rows.map RowRoll.total).Nodup) ∧
      ∀ row ∈ table.rows, .fixed row.total ∉ table.ref.instructions.ignore := by
  obtain ⟨root, s, hroot, hany⟩ := Roll.exists_ok_of_any
    (m := (Roller.mk .hoard SplitMix.source 3).resolve "/" .root .hoardPair)
    (s := .start default 0 (.empty default))
    (p := fun root => ((Roller.mk .hoard SplitMix.source 3).reroll [1] root .root).toOption.any
      fun roll => (roll.runFrom (.start default 0 (.empty default))).1.toOption.any fun node =>
        match node with
        | .table table => table.rows.map RowRoll.total = [4, 1]
        | _ => false)
    (by decide +kernel)
  have hreachable : Reachable root := .resolved _ _ _ _ hroot
  cases hreroll : (Roller.mk .hoard SplitMix.source 3).reroll [1] root .root with
  | error fault =>
    rw [hreroll] at hany
    cases hany
  | ok roll =>
    rw [hreroll] at hany
    obtain ⟨node, t, hnode, htotals⟩ := Roll.exists_ok_of_any hany
    cases node with
    | table table =>
      obtain ⟨hunique, hignore⟩ := totals_of_reachable _
        (.rerolled _ _ _ hreachable hreroll hnode) 0 table (.self _)
      exact ⟨root, s, roll, _, t, table, hroot, hreroll, hnode, .self _, by simpa using htotals,
        hunique, hignore⟩
    | bundle roll => cases htotals
    | leaf ref path => cases htotals

end Roller
end RandomTables
