import RandomTables.Proofs.Roller.AllOrNothing
import RandomTables.Proofs.Roller.Fresh

/-!
# The totals of a batch

Between two totals of a batch much may happen: templates are resolved and references are rolled, and
all of it draws dice. What a batch comes to is told as a list of turns, one for each total that was
rolled. Which totals were taken is settled by the totals alone: they are scanned in order, until
there are rows enough or 101 totals in a row were skipped.
-/
namespace RandomTables
open Roll

/-- What became of a total: it was skipped, or a row was rolled for it. -/
inductive Turn where
  | skipped (total : Int)
  | taken (row : RowRoll)

namespace Turn

def total : Turn → Int
  | skipped total => total
  | taken row => row.total

def isTaken : Turn → Bool
  | skipped _ => false
  | taken _ => true

/-- The row that was rolled, if any. -/
def row? : Turn → Option RowRoll
  | skipped _ => none
  | taken row => some row

def rows (turns : List Turn) : List RowRoll := turns.filterMap row?

theorem rows_skipped_append (totals : List Int) (turns : List Turn) :
    rows (totals.map skipped ++ turns) = rows turns := by
  induction totals with
  | nil => rfl
  | cons total totals ih => exact ih

end Turn

/-! ## Scanning totals -/

/-- Which totals are taken when `wanted` of them are still asked for and the last `skipped` ones
were skipped. There is no answer if the totals go on after the scan is over, or end before it. -/
def scan (unique : Bool) :
    (ignored : List Int) → (wanted skipped : Nat) → (totals : List Int) → Option (List Bool)
  | _, wanted, skipped, [] => if wanted = 0 ∨ skipped = 101 then some [] else none
  | ignored, wanted, skipped, total :: totals =>
    if wanted = 0 ∨ skipped = 101 then none
    else if total ∈ ignored then
      (scan unique ignored wanted (skipped + 1) totals).map (false :: ·)
    else
      (scan unique (if unique then total :: ignored else ignored) (wanted - 1) 0 totals).map
        (true :: ·)

/-- Turns are as the scan of their totals says: it goes on while rows are wanted and fewer than 101
totals in a row were skipped, and it takes the totals that are not ignored. -/
inductive Scanned (unique : Bool) :
    (ignored : List Int) → (wanted skipped : Nat) → List Turn → Prop
  | enough {ignored : List Int} {skipped : Nat} : Scanned unique ignored 0 skipped []
  | exhausted {ignored : List Int} {wanted : Nat} : Scanned unique ignored wanted 101 []
  | skip {ignored : List Int} {wanted skipped : Nat} {total : Int} {turns : List Turn} :
    skipped < 101 → total ∈ ignored → Scanned unique ignored (wanted + 1) (skipped + 1) turns →
    Scanned unique ignored (wanted + 1) skipped (.skipped total :: turns)
  | take {ignored : List Int} {wanted skipped : Nat} {row : RowRoll} {turns : List Turn} :
    skipped < 101 → row.total ∉ ignored →
    Scanned unique (if unique then row.total :: ignored else ignored) wanted 0 turns →
    Scanned unique ignored (wanted + 1) skipped (.taken row :: turns)

namespace Scanned
variable {unique : Bool} {ignored : List Int} {wanted skipped : Nat} {turns : List Turn}

theorem scan_eq (h : Scanned unique ignored wanted skipped turns) :
    scan unique ignored wanted skipped (turns.map Turn.total) =
      some (turns.map Turn.isTaken) := by
  induction h with
  | enough => simp [scan]
  | exhausted => simp [scan]
  | @skip ignored wanted skipped total turns hlt htotal _ ih =>
    have hgo : ¬ (wanted + 1 = 0 ∨ skipped = 101) := by omega
    rw [List.map_cons, scan, if_neg hgo, Turn.total, if_pos htotal, ih]
    rfl
  | @take ignored wanted skipped row turns hlt htotal _ ih =>
    have hgo : ¬ (wanted + 1 = 0 ∨ skipped = 101) := by omega
    rw [List.map_cons, scan, if_neg hgo, Turn.total, if_neg htotal, Nat.add_sub_cancel, ih]
    rfl

/-- So many totals in a row may be skipped as are left up to 101. -/
theorem skipped_append {totals : List Int} (htotals : ∀ total ∈ totals, total ∈ ignored)
    (hlength : skipped + totals.length ≤ 101)
    (h : Scanned unique ignored (wanted + 1) (skipped + totals.length) turns) :
    Scanned unique ignored (wanted + 1) skipped (totals.map .skipped ++ turns) := by
  induction totals generalizing skipped with
  | nil => exact h
  | cons total totals ih =>
    obtain ⟨htotal, htotals⟩ := List.forall_mem_cons.1 htotals
    rw [List.length_cons] at hlength h
    refine .skip (by omega) htotal (ih htotals (by omega) ?_)
    rwa [Nat.add_right_comm, Nat.add_assoc]

/-- No more totals are taken than are asked for. -/
theorem length_rows_le (h : Scanned unique ignored wanted skipped turns) :
    (Turn.rows turns).length ≤ wanted := by
  induction h with
  | enough => exact Nat.zero_le _
  | exhausted => exact Nat.zero_le _
  | skip _ _ _ ih => exact ih
  | take _ _ _ ih => exact Nat.succ_le_succ ih

/-- Fewer are taken only if the scan ends with 101 totals that were skipped. Some of them may have
been skipped before the turns at hand. -/
theorem exhausts (h : Scanned unique ignored wanted skipped turns)
    (hlt : (Turn.rows turns).length < wanted) :
    ∃ (front : List Turn) (totals : List Int), turns = front ++ totals.map .skipped ∧
      (totals.length = 101 ∨ front = [] ∧ skipped + totals.length = 101) := by
  induction h with
  | enough => exact absurd hlt (Nat.lt_irrefl 0)
  | exhausted => exact ⟨[], [], rfl, .inr ⟨rfl, rfl⟩⟩
  | @skip _ _ _ total _ _ _ _ ih =>
    obtain ⟨front, totals, rfl, hlength | ⟨rfl, hlength⟩⟩ := ih hlt
    · exact ⟨.skipped total :: front, totals, rfl, .inl hlength⟩
    · refine ⟨[], total :: totals, rfl, .inr ⟨rfl, ?_⟩⟩
      rw [List.length_cons]
      omega
  | @take _ _ _ row _ _ _ _ ih =>
    obtain ⟨front, totals, rfl, hlength | ⟨_, hlength⟩⟩ := ih (Nat.lt_of_succ_lt_succ hlt)
    · exact ⟨.taken row :: front, totals, rfl, .inl hlength⟩
    · exact ⟨.taken row :: front, totals, rfl, .inl ((Nat.zero_add _).symm.trans hlength)⟩

/-- No total that is taken is ignored. -/
theorem total_not_mem (h : Scanned unique ignored wanted skipped turns) :
    ∀ row ∈ Turn.rows turns, row.total ∉ ignored := by
  induction h with
  | enough => exact List.forall_mem_nil _
  | exhausted => exact List.forall_mem_nil _
  | skip _ _ _ ih => exact ih
  | take _ hrow _ ih =>
    refine List.forall_mem_cons.2 ⟨hrow, fun other hother hmem => ih other hother ?_⟩
    split
    · exact List.mem_cons_of_mem _ hmem
    · exact hmem

/-- With unique totals no total is taken twice: each is ignored from then on. -/
theorem nodup (h : Scanned true ignored wanted skipped turns) :
    ((Turn.rows turns).map RowRoll.total).Nodup := by
  induction h with
  | enough => exact List.nodup_nil
  | exhausted => exact List.nodup_nil
  | skip _ _ _ ih => exact ih
  | take _ _ hrest ih =>
    refine List.nodup_cons.2 ⟨fun hmem => ?_, ih⟩
    obtain ⟨other, hother, htotal⟩ := List.mem_map.1 hmem
    refine total_not_mem hrest other hother ?_
    rw [htotal]
    exact List.mem_cons_self ..

/-- At most 100 totals in a row are skipped before a total is taken, those before the turns at hand
included. -/
theorem length_skipped_le {totals : List Int} {row : RowRoll}
    (h : Scanned unique ignored wanted skipped (totals.map .skipped ++ .taken row :: turns)) :
    skipped + totals.length ≤ 100 := by
  induction totals generalizing wanted skipped with
  | nil =>
    cases h with
    | take hlt _ _ => exact Nat.le_of_lt_succ hlt
  | cons total totals ih =>
    cases h with
    | skip _ _ h =>
      have := ih h
      rw [List.length_cons]
      omega

/-- What is left of a scan is a scan again. -/
theorem of_append {front : List Turn}
    (h : Scanned unique ignored wanted skipped (front ++ turns)) :
    ∃ ignored' wanted' skipped', Scanned unique ignored' wanted' skipped' turns := by
  induction front generalizing ignored wanted skipped with
  | nil => exact ⟨ignored, wanted, skipped, h⟩
  | cons turn front ih =>
    cases h with
    | skip _ _ h => exact ih h
    | take _ _ h => exact ih h

end Scanned

/-! ## Turns of a batch -/

namespace Instructions

/-- The instructions ask for one row, or for as many as they say and none if that is below zero. -/
theorem count_eq_max (i : Instructions) (context : Context) :
    (i.count context : Int) = max 0 ((i.repeats.map fun q => q.evaluate context).getD 1) := by
  unfold count
  cases i.repeats with
  | none => rfl
  | some repeats =>
    simp only [Option.map_some, Option.getD_some]
    omega

end Instructions

namespace Batch
variable {source : Source} {children : ChildRoller} {b : Batch} {ignored : List Int}
  {s s' t : RollState}

/-- The batch takes these turns from one state to another: each total is rolled where the turn
before it left off, and the row of a total that is taken is rolled and logged right after it. -/
inductive Plays (source : Source) (children : ChildRoller) (b : Batch) :
    RollState → List Turn → RollState → Prop
  | nil {s : RollState} : Plays source children b s [] s
  | skip {s t s' : RollState} {total : Int} {turns : List Turn} :
    (b.rollTotal source).runFrom s = (.ok total, t) → Plays source children b t turns s' →
    Plays source children b s (.skipped total :: turns) s'
  | take {s t u s' : RollState} {row : RowRoll} {turns : List Turn} :
    (b.rollTotal source).runFrom s = (.ok row.total, t) →
    (b.rollRow source children row.total).runFrom t = (.ok row, u) →
    Plays source children b { u with log := u.log.add u.now (b.lookupOf row) } turns s' →
    Plays source children b s (.taken row :: turns) s'

theorem Plays.append {turns more : List Turn} (h : b.Plays source children s turns t)
    (hmore : b.Plays source children t more s') :
    b.Plays source children s (turns ++ more) s' := by
  induction h with
  | nil => exact hmore
  | skip htotal _ ih => exact .skip htotal (ih hmore)
  | take htotal hrow _ ih => exact .take htotal hrow (ih hmore)

/-- The row that is rolled for a total has that total. -/
theorem total_of_rollRow {total : Int} {row : RowRoll}
    (h : (b.rollRow source children total).runFrom s = (.ok row, s')) : row.total = total := by
  unfold rollRow at h
  cases hfind : b.table.findRow? total with
  | none =>
    rw [hfind] at h
    obtain ⟨rfl, _⟩ := runFrom_pure_eq_ok_iff.1 h
    rfl
  | some row' =>
    rw [hfind] at h
    obtain ⟨found, t, _, h⟩ := runFrom_bind_eq_ok_iff.1 h
    obtain ⟨nested, u, _, h⟩ := runFrom_bind_eq_ok_iff.1 h
    obtain ⟨rfl, _⟩ := runFrom_pure_eq_ok_iff.1 h
    rfl

/-- A search for a total that is not ignored skips as many as it may, or fewer before it finds
one. -/
theorem plays_of_rollFresh (children : ChildRoller) {tries : Nat} {fresh : Option Int}
    (h : (b.rollFresh source ignored tries).runFrom s = (.ok fresh, s')) :
    ∃ (totals : List Int) (t : RollState), b.Plays source children s (totals.map .skipped) t ∧
      (∀ total ∈ totals, total ∈ ignored) ∧
      match fresh with
      | none => totals.length = tries ∧ t = s'
      | some total => totals.length < tries ∧ (b.rollTotal source).runFrom t = (.ok total, s') := by
  induction tries generalizing s with
  | zero =>
    obtain ⟨rfl, rfl⟩ := runFrom_pure_eq_ok_iff.1 h
    exact ⟨[], s, .nil, by simp, rfl, rfl⟩
  | succ tries ih =>
    obtain ⟨total, t, htotal, h⟩ := runFrom_bind_eq_ok_iff.1 h
    by_cases hmem : total ∈ ignored
    · rw [if_pos hmem] at h
      obtain ⟨totals, u, hplays, htotals, hend⟩ := ih h
      refine ⟨total :: totals, u, .skip htotal hplays, List.forall_mem_cons.2 ⟨hmem, htotals⟩, ?_⟩
      cases fresh with
      | none => exact ⟨congrArg (· + 1) hend.1, hend.2⟩
      | some fresh => exact ⟨Nat.succ_lt_succ hend.1, hend.2⟩
    · rw [if_neg hmem] at h
      obtain ⟨rfl, rfl⟩ := runFrom_pure_eq_ok_iff.1 h
      exact ⟨[], s, .nil, by simp, Nat.succ_pos _, htotal⟩

/-- One more row is a search for a total and then the row of that total, unless the search comes to
nothing. -/
theorem plays_of_rollNext {next : Option RowRoll}
    (h : (b.rollNext source children ignored).runFrom s = (.ok next, s')) :
    ∃ totals : List Int, (∀ total ∈ totals, total ∈ ignored) ∧
      match next with
      | none => totals.length = 101 ∧ b.Plays source children s (totals.map .skipped) s'
      | some row => totals.length ≤ 100 ∧ row.total ∉ ignored ∧
          b.Plays source children s (totals.map .skipped ++ [.taken row]) s' := by
  obtain ⟨fresh, u, hfresh, h⟩ := runFrom_bind_eq_ok_iff.1 h
  obtain ⟨totals, t, hskips, htotals, hend⟩ := plays_of_rollFresh children hfresh
  cases fresh with
  | none =>
    obtain ⟨rfl, rfl⟩ := runFrom_pure_eq_ok_iff.1 h
    obtain ⟨hlength, rfl⟩ := hend
    exact ⟨totals, htotals, hlength, hskips⟩
  | some total =>
    obtain ⟨hlength, htotal⟩ := hend
    obtain ⟨row, v, hrow, hlogged⟩ := runFrom_bind_eq_ok_iff.1 h
    obtain rfl := total_of_rollRow hrow
    rw [runFrom_bind_of_ok (runFrom_logEvent _ _)] at hlogged
    obtain ⟨rfl, rfl⟩ := runFrom_pure_eq_ok_iff.1 hlogged
    exact ⟨totals, htotals, Nat.le_of_lt_succ hlength, not_mem_of_rollFresh hfresh,
      hskips.append (.take htotal hrow .nil)⟩

/-- The rows of a batch are those of its turns, which are as the scan of their totals says. -/
theorem plays_of_rollRows {count : Nat} {rows : List RowRoll}
    (h : (b.rollRows source children ignored count).runFrom s = (.ok rows, s')) :
    ∃ turns, b.Plays source children s turns s' ∧ rows = Turn.rows turns ∧
      Scanned b.instructions.unique ignored count 0 turns := by
  induction count generalizing ignored s rows with
  | zero =>
    obtain ⟨rfl, rfl⟩ := runFrom_pure_eq_ok_iff.1 h
    exact ⟨[], .nil, rfl, .enough⟩
  | succ count ih =>
    obtain ⟨next, t, hnext, h⟩ := runFrom_bind_eq_ok_iff.1 h
    obtain ⟨totals, htotals, hnext⟩ := plays_of_rollNext hnext
    cases next with
    | none =>
      obtain ⟨rfl, rfl⟩ := runFrom_pure_eq_ok_iff.1 h
      obtain ⟨hlength, hplays⟩ := hnext
      rw [← List.append_nil (totals.map Turn.skipped)] at hplays
      refine ⟨_, hplays, (Turn.rows_skipped_append totals []).symm, ?_⟩
      refine Scanned.skipped_append htotals (by omega) ?_
      rw [hlength]
      exact .exhausted
    | some row =>
      obtain ⟨hlength, hfresh, hplays⟩ := hnext
      obtain ⟨rows, u, hrows, h⟩ := runFrom_bind_eq_ok_iff.1 h
      obtain ⟨rfl, rfl⟩ := runFrom_pure_eq_ok_iff.1 h
      obtain ⟨turns, hothers, rfl, hscan⟩ := ih hrows
      have hplays := hplays.append hothers
      rw [List.append_assoc] at hplays
      refine ⟨_, hplays, (Turn.rows_skipped_append totals (.taken row :: turns)).symm, ?_⟩
      exact Scanned.skipped_append htotals (by omega) (.take (by omega) hfresh hscan)

/-- With a total that is asked for, no total is rolled with dice. -/
theorem runFrom_rollTotal {total : Quantity} (h : b.instructions.total = some total)
    (s : RollState) :
    (b.rollTotal source).runFrom s = (.ok (total.evaluate b.context), s) := by
  rw [rollTotal, h]
  rfl

end Batch

namespace Roller

/-- Where all dice have sides, a batch comes to the rows of its turns, and which totals are taken is
what the scan of the totals says: those to ignore and the ones further on the list are skipped, and
with unique totals those that were taken before. There are fewer rows than asked for only if 101
totals in a row were skipped at the end, and no row comes after more than 100 of them. A total that
is asked for is not rolled: nothing about the state changes. -/
theorem batch_scans (r : Roller) (hregistry : r.registry.HasSides) (b : Batch) (hb : b.HasSides)
    (further : List Int) (s : RollState) :
    ∃ rows s' turns,
      (b.rollRows r.source (r.children b.context)
          (b.instructions.ignored b.context ++ further)
          (b.instructions.count b.context)).runFrom s = (.ok rows, s') ∧
      b.Plays r.source (r.children b.context) s turns s' ∧ rows = Turn.rows turns ∧
      scan b.instructions.unique (b.instructions.ignored b.context ++ further)
          (b.instructions.count b.context) 0 (turns.map Turn.total) =
        some (turns.map Turn.isTaken) ∧
      (b.instructions.count b.context : Int) =
        max 0 ((b.instructions.repeats.map fun q => q.evaluate b.context).getD 1) ∧
      rows.length ≤ b.instructions.count b.context ∧
      (rows.length < b.instructions.count b.context →
        ∃ (front : List Turn) (totals : List Int),
          turns = front ++ totals.map .skipped ∧ totals.length = 101) ∧
      (∀ row ∈ rows, row.total ∉ b.instructions.ignored b.context ∧ row.total ∉ further) ∧
      (b.instructions.unique → (rows.map RowRoll.total).Nodup) ∧
      (∀ (front : List Turn) (totals : List Int) (row : RowRoll) (rest : List Turn),
        turns = front ++ (totals.map .skipped ++ .taken row :: rest) → totals.length ≤ 100) ∧
      ∀ total, b.instructions.total = some total → ∀ t,
        (b.rollTotal r.source).runFrom t = (.ok (total.evaluate b.context), t) := by
  have hsucceeds : Succeeds (b.rollRows r.source (r.children b.context)
      (b.instructions.ignored b.context ++ further) (b.instructions.count b.context))
      fun _ => True :=
    Batch.rollRows_succeeds hb (childrenAt_succeeds hregistry _) _ _
  obtain ⟨rows, s', hrun, -⟩ := hsucceeds s
  obtain ⟨turns, hplays, rfl, hscan⟩ := Batch.plays_of_rollRows hrun
  refine ⟨_, s', turns, hrun, hplays, rfl, hscan.scan_eq, b.instructions.count_eq_max b.context,
    hscan.length_rows_le, fun hlt => ?_, fun row hrow => ?_, fun hunique => ?_, ?_,
    fun total htotal => Batch.runFrom_rollTotal htotal⟩
  · obtain ⟨front, totals, hturns, hlength⟩ := hscan.exhausts hlt
    exact ⟨front, totals, hturns, by omega⟩
  · have hfresh := hscan.total_not_mem row hrow
    rwa [List.mem_append, not_or] at hfresh
  · rw [hunique] at hscan
    exact hscan.nodup
  · rintro front totals row rest rfl
    obtain ⟨ignored, wanted, skipped, hscan⟩ := hscan.of_append
    exact Nat.le_trans (Nat.le_add_left ..) hscan.length_skipped_le

end Roller

/-- Two different rings are asked for, and the total is said to be four. -/
def Batch.rings : Batch where
  table := ⟨"/ring", "Ring", .dice 1 4 false,
    [⟨[.plain "a ring with ", .reference (.toPath "/gem") none], ⟨1, 4, by decide⟩,
      "1-4|a ring with /gem"⟩], .empty, none⟩
  context := .root
  instructions := { Instructions.plain with
    repeats := some (.fixed 2)
    total := some (.fixed 4)
    unique := true
    ignore := [.fixed 2] }
  inputs := .empty

theorem Batch.rings_hasSides : rings.HasSides := by
  have hgem : (Reference.toPath "/gem").HasSides := by decide
  have hinputs : ∀ e ∈ (Bindings.empty : Bindings Reference).entries, e.2.HasSides := by decide
  have hextra : ∀ template, none = some template → Component.AllHaveSides template := by simp
  refine ⟨⟨⟨?_, hinputs, hextra⟩, by decide⟩, by decide⟩
  simp [rings, Component.AllHaveSides, Component.HasSides, hgem]

namespace Roller

/-- There is one ring. For the second one 101 totals are skipped, and none of them is rolled. -/
theorem rings_scan :
    Registry.hoard.HasSides ∧ Batch.rings.HasSides ∧
      ∃ rows s' turns,
        (Batch.rings.rollRows SplitMix.source
          ((Roller.mk .hoard SplitMix.source 3).children Batch.rings.context) [2, 3] 2).runFrom
            (.start default 7 (.empty default)) = (.ok rows, s') ∧
        rows = Turn.rows turns ∧ rows.length = 1 ∧ (rows.map RowRoll.total).Nodup ∧
        (∃ (front : List Turn) (totals : List Int),
          turns = front ++ totals.map .skipped ∧ totals.length = 101) ∧
        ∀ t, (Batch.rings.rollTotal SplitMix.source).runFrom t = (.ok 4, t) := by
  obtain ⟨rows, s', turns, hrun, _, hrows, _, _, _, hfew, _, hunique, _, htotal⟩ :=
    batch_scans ⟨.hoard, SplitMix.source, 3⟩ hoard_hasSides .rings Batch.rings_hasSides [3]
      (.start default 7 (.empty default))
  have hlength : rows.length = 1 := by
    obtain ⟨rows', s'', hrun', hlength⟩ := exists_ok_of_any
      (m := Batch.rings.rollRows SplitMix.source
        ((Roller.mk .hoard SplitMix.source 3).children Batch.rings.context) [2, 3] 2)
      (s := .start default 7 (.empty default)) (p := fun rows => rows.length = 1)
      (by decide +kernel)
    obtain rfl : rows' = rows := by
      have hsame := hrun'.symm.trans hrun
      simpa using congrArg Prod.fst hsame
    simpa using hlength
  exact ⟨hoard_hasSides, Batch.rings_hasSides, rows, s', turns, hrun, hrows, hlength, hunique rfl,
    hfew (by rw [hlength]; decide), htotal _ rfl⟩

end Roller
end RandomTables
