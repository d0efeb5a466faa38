import RandomTables.Proofs.Roller.Run

/-!
# Totals that are not ignored

A row is rolled again and again until its total is not ignored, and where totals are to be unique,
the totals of the rows before it are ignored as well. No row has a total that was ignored when the
row was rolled; so with unique totals every row differs from those before it and from those after
it. Ignoring further totals changes nothing about a row that has none of them.
-/
namespace RandomTables
open Roll

namespace Batch
variable {b : Batch} {source : Source} {ignored more : List Int} {s s' : RollState}

/-- The totals to ignore when the row at an index is rolled. -/
def ignoredBefore (b : Batch) (ignored : List Int) (rows : List RowRoll) (index : Nat) :
    List Int :=
  (rows.take index).foldl b.ignoredAfter ignored

@[simp] theorem ignoredBefore_zero (b : Batch) (ignored : List Int) (rows : List RowRoll) :
    b.ignoredBefore ignored rows 0 = ignored := rfl

@[simp] theorem ignoredBefore_cons_succ (b : Batch) (ignored : List Int) (row : RowRoll)
    (rows : List RowRoll) (index : Nat) :
    b.ignoredBefore ignored (row :: rows) (index + 1) =
      b.ignoredBefore (b.ignoredAfter ignored row) rows index := rfl

theorem mem_ignoredAfter_iff {row : RowRoll} {total : Int} :
    total ∈ b.ignoredAfter ignored row ↔
      total ∈ ignored ∨ b.instructions.unique ∧ total = row.total := by
  unfold ignoredAfter
  cases b.instructions.unique
  · simp
  · simp [or_comm]

/-- What is ignored when a row is rolled: what is ignored anyway, and with unique totals those of
the rows before it. -/
theorem mem_ignoredBefore_iff {rows : List RowRoll} {index : Nat} {total : Int} :
    total ∈ b.ignoredBefore ignored rows index ↔
      total ∈ ignored ∨
        b.instructions.unique ∧ ∃ i row, i < index ∧ rows[i]? = some row ∧ row.total = total := by
  induction rows generalizing ignored index with
  | nil => simp [ignoredBefore]
  | cons row rows ih =>
    cases index with
    | zero => simp
    | succ index =>
      rw [ignoredBefore_cons_succ, ih, mem_ignoredAfter_iff, or_assoc]
      refine or_congr_right ?_
      constructor
      · rintro (⟨hunique, rfl⟩ | ⟨hunique, i, other, hi, hother, htotal⟩)
        · exact ⟨hunique, 0, row, by omega, rfl, rfl⟩
        · exact ⟨hunique, i + 1, other, by omega, hother, htotal⟩
      · rintro ⟨hunique, i, other, hi, hother, htotal⟩
        cases i with
        | zero =>
          obtain rfl := Option.some.inj hother
          exact .inl ⟨hunique, htotal.symm⟩
        | succ i => exact .inr ⟨hunique, i, other, by omega, hother, htotal⟩

/-- A total that is accepted is not ignored. -/
theorem not_mem_of_rollFresh {tries : Nat} {total : Int}
    (h : (b.rollFresh source ignored tries).runFrom s = (.ok (some total), s')) :
    total ∉ ignored := by
  induction tries generalizing s with
  | zero => cases h
  | succ tries ih =>
    obtain ⟨rolled, t, _, h⟩ := runFrom_bind_eq_ok_iff.1 h
    by_cases hmem : rolled ∈ ignored
    · rw [if_pos hmem] at h
      exact ih h
    · rw [if_neg hmem] at h
      obtain ⟨hrolled, _⟩ := runFrom_pure_eq_ok_iff.1 h
      obtain rfl := Option.some.inj hrolled
      exact hmem

/-- With further totals ignored the same total is accepted, unless it is one of them. -/
theorem rollFresh_of_subset {tries : Nat} {total : Int} (hsubset : ignored ⊆ more)
    (htotal : total ∉ more)
    (h : (b.rollFresh source ignored tries).runFrom s = (.ok (some total), s')) :
    (b.rollFresh source more tries).runFrom s = (.ok (some total), s') := by
  induction tries generalizing s with
  | zero => cases h
  | succ tries ih =>
    obtain ⟨rolled, t, hrolled, h⟩ := runFrom_bind_eq_ok_iff.1 h
    refine runFrom_bind_eq_ok_iff.2 ⟨rolled, t, hrolled, ?_⟩
    by_cases hmem : rolled ∈ ignored
    · rw [if_pos hmem] at h
      rw [if_pos (hsubset hmem)]
      exact ih h
    · rw [if_neg hmem] at h
      obtain ⟨haccepted, _⟩ := runFrom_pure_eq_ok_iff.1 h
      obtain rfl := Option.some.inj haccepted
      rw [if_neg htotal]
      exact h

end Batch

namespace Run
variable {r : Roller} {b : Batch} {ignored more : List Int} {s s' : RollState}

theorem total_not_mem {row : RowRoll} (run : Run r (.row b ignored) s (some row) s') :
    row.total ∉ ignored := by
  cases run with
  | missing hfresh _ => exact Batch.not_mem_of_rollFresh hfresh
  | found hfresh _ _ _ => exact Batch.not_mem_of_rollFresh hfresh

/-- A row that has none of the further totals is the same row when these are ignored as well. -/
def ofSubset {row : RowRoll} (hsubset : ignored ⊆ more) (htotal : row.total ∉ more) :
    Run r (.row b ignored) s (some row) s' → Run r (.row b more) s (some row) s'
  | .missing hfresh hfind => .missing (Batch.rollFresh_of_subset hsubset htotal hfresh) hfind
  | .found hfresh hfind hresolve nestedRun =>
    .found (Batch.rollFresh_of_subset hsubset htotal hfresh) hfind hresolve nestedRun

/-- No row has a total that is ignored when it is rolled. -/
theorem total_not_mem_ignoredBefore {count : Nat} {rows : List RowRoll}
    (run : Run r (.rows b ignored count) s rows s') {index : Nat} {row : RowRoll}
    (h : rows[index]? = some row) : row.total ∉ b.ignoredBefore ignored rows index := by
  induction count generalizing ignored s rows index with
  | zero =>
    cases run
    simp at h
  | succ count ih =>
    cases run with
    | stopped first => simp at h
    | more first others =>
      cases index with
      | zero =>
        obtain rfl := Option.some.inj h
        exact total_not_mem first
      | succ index => exact ih others h

/-- With unique totals two different rows have different ones. -/
theorem total_ne_total {count : Nat} {rows : List RowRoll}
    (run : Run r (.rows b ignored count) s rows s') (hunique : b.instructions.unique)
    {i j : Nat} (hne : i ≠ j) {row other : RowRoll} (hrow : rows[i]? = some row)
    (hother : rows[j]? = some other) : row.total ≠ other.total := by
  intro htotal
  rcases Nat.lt_or_gt_of_ne hne with hlt | hlt
  · refine run.total_not_mem_ignoredBefore hother ?_
    exact Batch.mem_ignoredBefore_iff.2 (.inr ⟨hunique, i, row, hlt, hrow, htotal⟩)
  · refine run.total_not_mem_ignoredBefore hrow ?_
    exact Batch.mem_ignoredBefore_iff.2 (.inr ⟨hunique, j, other, hlt, hother, htotal.symm⟩)

end Run
end RandomTables
