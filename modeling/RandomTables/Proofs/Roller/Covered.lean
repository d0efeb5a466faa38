import RandomTables.Proofs.Definition.Errors
import RandomTables.Proofs.Definition.Numbered
import RandomTables.Proofs.Dice.Range
import RandomTables.Proofs.Roller.Conforms
import RandomTables.Proofs.Roller.Turns

/-!
# Rows that cover their table

A table whose document gives neither dice nor totals has a die with a face for each of its rows, and
face number k selects row number k. Whatever such a table is rolled for, there is a row: as long as
the instructions leave its total alone, no outcome that can be reached has a missing row of it
(`rows_number_and_cover`).
-/
namespace RandomTables
open Roll (Succeeds)

/-- The lines are the rows of the table. Its die has a face for each of them, and each face selects
the line with its number. -/
structure Table.CoveredBy (t : Table) (lines : List Text) : Prop where
  sources : t.rows.map Row.source = lines
  ne_nil : lines ≠ []
  dice : t.dice = .dice 1 lines.length false
  selects (k : Nat) (line : Text) : lines[k]? = some line →
    ∃ row, t.findRow? (k + 1) = some row ∧ row.source = line ∧ row.range = .single (k + 1)

/-! ## Tables from documents -/

namespace Definition
variable {path : Text} {entries : List (Scalar × Document)} {rows : List Row} {t : Table}

/-- The highest total of rows that are numbered on is the number of the last one. -/
theorem foldl_max_of_numbered {start : Int}
    (h : ∀ (k : Nat) (row : Row), rows[k]? = some row → row.range.max = start + k + 1) :
    rows.foldl (fun high r => max high r.range.max) start = start + rows.length := by
  induction rows generalizing start with
  | nil => simp
  | cons first rows ih =>
    have hfirst : first.range.max = start + 1 := by simpa using h 0 first rfl
    have hrest : rows.foldl (fun high r => max high r.range.max) (start + 1) =
        start + 1 + rows.length := by
      refine ih fun k row hrow => ?_
      have hmax := h (k + 1) row hrow
      omega
    rw [List.foldl_cons, hfirst, show max start (start + 1) = start + 1 by omega, hrest,
      List.length_cons]
    omega

/-- The die that fits numbered rows has a face for each of them. -/
theorem defaultDice_of_numbered {e : Dice.Expr} (h : defaultDice path rows = .ok e)
    (hrows : ∀ (k : Nat) (row : Row), rows[k]? = some row → row.range = .single (k + 1)) :
    rows ≠ [] ∧ e = .dice 1 rows.length false := by
  cases rows with
  | nil => cases h
  | cons first rows =>
    obtain rfl := Except.ok.inj h
    refine ⟨List.cons_ne_nil _ _, ?_⟩
    -- The search for the highest total starts at the first row, and the others go on from there.
    have hfirst : first.range.max = 1 := by
      rw [hrows 0 first rfl]
      rfl
    have hrest : ∀ (k : Nat) (row : Row), rows[k]? = some row → row.range.max = 1 + k + 1 := by
      intro k row hrow
      rw [hrows (k + 1) row hrow]
      change ((k + 1 : Nat) : Int) + 1 = 1 + k + 1
      omega
    rw [hfirst, foldl_max_of_numbered hrest]
    congr 1
    simp only [List.length_cons]
    omega

theorem readAll_of_rowsOf (h : rowsOf path entries = .ok rows) :
    Row.readAll (rowTexts entries) = .ok rows := by
  unfold rowsOf at h
  rw [rowTexts]
  split at h
  · cases h
  · next lines hlines =>
    rw [hlines]
    split at h
    · next hread =>
      obtain rfl := Except.ok.inj h
      exact hread
    · cases h
    · cases h

/-- A table has the rows and the dice that its document describes. -/
theorem rows_and_dice_of_ofDocument (h : ofDocument path (.map entries) = .ok (.table t)) :
    rowsOf path entries = .ok t.rows ∧ diceOf path entries t.rows = .ok t.dice := by
  obtain ⟨title, found, hfound, ⟨b, _, hb⟩ | ⟨u, hu, hsame⟩⟩ := bundleOf_or_tableOf_of_ofDocument h
  · cases hb
  · obtain rfl := Document.map.inj hfound
    obtain rfl := Definition.table.inj hsame
    obtain ⟨_, hrows, hdice, _⟩ := parts_of_tableOf hu
    exact ⟨hrows, hdice⟩

end Definition

/-- Among rows with their numbers as totals each number selects its row. -/
theorem Table.findRow?_of_numbered {t : Table}
    (h : ∀ (k : Nat) (row : Row), t.rows[k]? = some row → row.range = .single (k + 1))
    {k : Nat} {row : Row} (hrow : t.rows[k]? = some row) : t.findRow? (k + 1) = some row := by
  obtain ⟨hlt, hget⟩ := List.getElem?_eq_some_iff.1 hrow
  refine List.find?_eq_some_iff_getElem.2 ⟨?_, k, hlt, hget, fun j hj => ?_⟩
  · simp [h k row hrow, RowRange.holds, RowRange.single]
  · have hrange := h j t.rows[j] (List.getElem?_eq_getElem _)
    simp only [hrange, RowRange.holds, RowRange.single, Bool.not_eq_true', Bool.and_eq_false_iff,
      decide_eq_false_iff_not]
    omega

/-- A document without dice, whose lines declare no totals, describes a table that its lines
cover. -/
theorem Definition.coveredBy_of_ofDocument {path : Text} {entries : List (Scalar × Document)}
    {t : Table} (h : ofDocument path (.map entries) = .ok (.table t))
    (hdice : Document.present? entries "dice" = none)
    (hnone : ∀ line ∈ rowTexts entries, ∀ head, ¬ Row.Declares line head) :
    t.CoveredBy (Row.content (rowTexts entries)) := by
  obtain ⟨hrows, hfits⟩ := rows_and_dice_of_ofDocument h
  have hread := readAll_of_rowsOf hrows
  have hsources := Row.sources_of_readAll hread
  have hranges : ∀ (k : Nat) (row : Row), t.rows[k]? = some row → row.range = .single (k + 1) :=
    fun k row hrow => Row.range_of_readAll hread hnone hrow
  simp only [diceOf, hdice] at hfits
  obtain ⟨hne, hdie⟩ := defaultDice_of_numbered hfits hranges
  rw [← hsources]
  refine ⟨rfl, fun hnil => hne (List.map_eq_nil_iff.1 hnil), ?_, fun k line hline => ?_⟩
  · rw [List.length_map, hdie]
  · rw [List.getElem?_map] at hline
    obtain ⟨row, hrow, rfl⟩ := Option.map_eq_some_iff.1 hline
    exact ⟨row, Table.findRow?_of_numbered hranges hrow, rfl, hranges k row hrow⟩

/-! ## Totals that are rolled -/

/-- The instructions leave the total to the dice of the table: they give no total and no dice of
their own, and change nothing about what was rolled. -/
structure Instructions.LeavesTotal (i : Instructions) : Prop where
  total : i.total = none
  dice : i.dice = none
  modifier : i.modifier = none

namespace Table.CoveredBy
variable {t : Table} {lines : List Text} {total : Int}

theorem hasSides (h : t.CoveredBy lines) : t.dice.HasSides := by
  rw [h.dice, Dice.Expr.hasSides_dice_iff]
  exact Int.natCast_pos.2 (List.length_pos_of_ne_nil h.ne_nil)

/-- The die of the table comes to the number of one of its lines. -/
theorem exists_of_evaluate (h : t.CoveredBy lines) {source : Source} (hsource : source.Bounded)
    {reason : Text} {groups : List DiceGroup} {s s' : RollState}
    (hrun : (t.dice.evaluate source reason).runFrom s = (.ok (total, groups), s')) :
    ∃ k < lines.length, total = (k : Int) + 1 := by
  have hsides := h.hasSides
  rw [h.dice] at hrun hsides
  obtain ⟨hlow, hhigh⟩ := Span.holds_iff.1
    (Dice.Expr.range_holds_of_evaluate hsource hsides hrun)
  change 1 ≤ total at hlow
  change total ≤ 1 * (lines.length : Int) at hhigh
  exact ⟨(total - 1).toNat, by omega, by omega⟩

theorem exists_of_rollTotal {b : Batch} (h : b.table.CoveredBy lines)
    (hleaves : b.instructions.LeavesTotal) {source : Source} (hsource : source.Bounded)
    {s s' : RollState} (hrun : (b.rollTotal source).runFrom s = (.ok total, s')) :
    ∃ k < lines.length, total = (k : Int) + 1 := by
  simp only [Batch.rollTotal, hleaves.total, hleaves.dice, hleaves.modifier, Option.getD_none,
    Option.map_none] at hrun
  obtain ⟨⟨rolled, groups⟩, t, hrolled, hrun⟩ := Roll.runFrom_bind_eq_ok_iff.1 hrun
  obtain ⟨rfl, _⟩ := Roll.runFrom_pure_eq_ok_iff.1 hrun
  rw [Int.add_zero]
  exact h.exists_of_evaluate hsource hrolled

/-- A total can always be rolled, and it is the number of one of the lines. -/
theorem rollTotal_succeeds {b : Batch} (h : b.table.CoveredBy lines)
    (hleaves : b.instructions.LeavesTotal) {source : Source} (hsource : source.Bounded) :
    Succeeds (b.rollTotal source) fun total => ∃ k < lines.length, total = (k : Int) + 1 := by
  have hsucceeds : Succeeds (b.rollTotal source) fun _ => True := by
    simp only [Batch.rollTotal, hleaves.total, hleaves.dice, Option.getD_none]
    exact (Dice.Expr.evaluate_succeeds source _ h.hasSides).bind fun _ _ => .pure trivial
  exact hsucceeds.of_run fun s total s' hrun => h.exists_of_rollTotal hleaves hsource hrun

end Table.CoveredBy

/-! ## Outcomes -/

/-- A row is one of the lines: there is a row, its total is the number of the line, and it is
selected by no other. -/
def RowRoll.FromLine (lines : List Text) : RowRoll → Prop
  | missing _ => False
  | found row => ∃ k < lines.length, row.total = (k : Int) + 1 ∧ row.range = .single (k + 1)

/-- A row that is rolled is one of the lines that cover the table. -/
theorem Run.row_fromLine {r : Roller} {b : Batch} {ignored : List Int} {row : RowRoll}
    {s s' : RollState} (run : Run r (.row b ignored) s (some row) s') {lines : List Text}
    (h : b.table.CoveredBy lines) (hleaves : b.instructions.LeavesTotal)
    (hsource : r.source.Bounded) : row.FromLine lines := by
  have hselected : ∀ {total : Int} {t t' : RollState},
      (b.rollFresh r.source ignored Batch.maxTries).runFrom t = (.ok (some total), t') →
      ∃ k < lines.length, total = (k : Int) + 1 ∧
        ∃ row, b.table.findRow? total = some row ∧ row.range = .single (k + 1) := by
    intro total t t' hfresh
    obtain ⟨_, _, _, _, _, htotal⟩ := Batch.plays_of_rollFresh (r.children b.context) hfresh
    obtain ⟨k, hk, rfl⟩ := h.exists_of_rollTotal hleaves hsource htotal
    obtain ⟨row, hfind, _, hrange⟩ := h.selects k _ (List.getElem?_eq_getElem hk)
    exact ⟨k, hk, rfl, row, hfind, hrange⟩
  cases run with
  | missing hfresh hfind =>
    obtain ⟨_, _, _, _, hsome, _⟩ := hselected hfresh
    rw [hfind] at hsome
    cases hsome
  | found hfresh hfind _ _ =>
    obtain ⟨k, hk, htotal, row, hsome, hrange⟩ := hselected hfresh
    obtain rfl := Option.some.inj (hfind.symm.trans hsome)
    exact ⟨k, hk, htotal, hrange⟩

/-- Where the node is a roll of the table that leaves its total alone, each of its rows is one of
the lines. -/
def Node.RowsFrom (t : Table) (lines : List Text) : Node → Prop
  | table roll => roll.table = t → roll.ref.instructions.LeavesTotal →
      ∀ row ∈ roll.rows, row.FromLine lines
  | _ => True

theorem Node.rowsFrom_shallow (t : Table) (lines : List Text) : Shallow (RowsFrom t lines) where
  table {roll index row} nested hrow h htable hleaves other hother := by
    rcases List.mem_or_eq_of_mem_set hother with hother | rfl
    · exact h htable hleaves other hother
    · exact h htable hleaves (.found row) (List.mem_of_getElem? hrow)
  bundle repeats h := trivial

namespace Roller

/-- The roller draws in range and holds nothing else in the place of the table. -/
structure Keeps (t : Table) (r : Roller) : Prop where
  bounded : r.source.Bounded
  same (d : Definition) : r.registry.get? t.path = some d → d = .table t

/-- Rows stay those of the lines, whatever is rolled again. -/
theorem rowsFrom_lasts {t : Table} {lines : List Text} (h : t.CoveredBy lines) :
    Lasting (Keeps t) (Node.RowsFrom t lines) where
  leaf _ _ := trivial
  made hr _ hmade := by
    cases hmade with
    | table _ rowsRun _ =>
      rintro rfl hleaves row hrow
      obtain ⟨_, _, _, ⟨rowRun⟩⟩ := rowsRun.row_of_mem hrow
      exact rowRun.row_fromLine h hleaves hr.bounded
    | bundle _ => trivial
  row {r context roll table new rest s s'} index hr hget hold rowsRun := by
    rintro rfl hleaves row hrow
    -- The table that is registered now is the one that was rolled before.
    obtain rfl := Definition.table.inj (hr.same _ hget)
    rcases List.mem_or_eq_of_mem_set hrow with hrow | rfl
    · exact hold rfl hleaves row hrow
    · obtain ⟨_, _, _, ⟨rowRun⟩⟩ := rowsRun.row_of_mem List.mem_cons_self
      exact rowRun.row_fromLine h hleaves hr.bounded
  nodes _ _ _ _ _ := trivial
  exchange := (Node.rowsFrom_shallow t lines).exchangeable

end Roller

/-- Blank lines change neither the rows of a list of lines nor its error. The other lines are its
rows, numbered from one: a row has the totals that its line declares, or else its number; and what
is wrong with a line is reported with its number. If the lines are those of a document that
describes a table, none of them declares totals and no dice are given, they cover the table: the
die has a face for each line, and each face selects the line with its number. Such a table can
always be rolled where the instructions leave its total alone, and in every outcome that can be
reached each row of it is one of the lines, so that none is missing. -/
theorem rows_number_and_cover (lines : List Text) :
    (∀ others, Row.AlikeInBlanks lines others → Row.readAll others = Row.readAll lines) ∧
    (∀ rows, Row.readAll lines = .ok rows → rows.length = (Row.content lines).length ∧
      ∀ (k : Nat) (line : Text), (Row.content lines)[k]? = some line →
        ∃ row, rows[k]? = some row ∧ row.NumberedBy line (k + 1)) ∧
    (∀ error, Row.readAll lines = .error error → ∃ before line after inner,
      Row.content lines = before ++ line :: after ∧
      (∃ rows, Row.readFrom 1 before = .ok rows) ∧
      Row.read line ((1 + before.length : Nat) : Int) = .error inner ∧
      error = Row.errorAt (1 + before.length) inner) ∧
    ∀ path entries t, Definition.rowTexts entries = lines →
      Definition.ofDocument path (.map entries) = .ok (.table t) →
      Document.present? entries "dice" = none →
      (∀ line ∈ lines, ∀ head, ¬ Row.Declares line head) →
        t.CoveredBy (Row.content lines) ∧
        (∀ source : Source, source.Bounded → ∀ b : Batch, b.table = t →
          b.instructions.LeavesTotal → Succeeds (b.rollTotal source) fun total =>
            ∃ k < (Row.content lines).length, total = (k : Int) + 1) ∧
        ∀ root, Roller.ReachableBy (Roller.Keeps t) root → ∀ level roll,
          root.Below level (.table roll) → roll.table = t → roll.ref.instructions.LeavesTotal →
            ∀ row ∈ roll.rows, row.FromLine (Row.content lines) := by
  refine ⟨fun others h => h.readAll_eq, fun rows h => Row.numberedBy_of_readAll h,
    fun error h => Row.exists_of_readFrom_eq_error h, ?_⟩
  rintro path entries t rfl hread hdice hnone
  have hcovered := Definition.coveredBy_of_ofDocument hread hdice hnone
  refine ⟨hcovered, ?_, ?_⟩
  · rintro source hsource b rfl hleaves
    exact hcovered.rollTotal_succeeds hleaves hsource
  · intro root hroot level roll hroll
    exact (Roller.rowsFrom_lasts hcovered).throughout_of_reachable hroot level _ hroll

/-- The rows of two jewels, with two blank lines between them. -/
def jewelEntries : List (Scalar × Document) :=
  [(.text "rows", .list [.text "Ruby", .text "", .text "  ", .text "Pearl"])]

def Table.jewels : Table :=
  ⟨"/jewels", "jewels", .dice 1 2 false, [⟨[.plain "Ruby"], .single 1, "Ruby"⟩,
    ⟨[.plain "Pearl"], .single 2, "Pearl"⟩], .empty, none⟩

/-- A registry that holds the two jewels only. -/
def Registry.jewels : Registry := .ofDefinitions "/" [.table .jewels]

theorem Roller.keeps_jewels {source : Source} (h : source.Bounded) (maxDepth : Int) :
    Keeps .jewels (Roller.mk .jewels source maxDepth) := by
  refine ⟨h, fun d hget => ?_⟩
  exact List.mem_singleton.1 (List.mem_of_find?_eq_some hget)

/-- Two jewels are numbered one and two. Rolled and then rolled again with a replay, the table comes
to the second one. In other lines the second row is what is wrong. -/
theorem jewels_number_and_cover :
    Row.readAll ["Ruby", "Pearl"] = Row.readAll ["Ruby", "", "  ", "Pearl"] ∧
    (∃ row, Table.jewels.rows[1]? = some row ∧ row.NumberedBy "Pearl" 2) ∧
    (∃ before line after inner, Row.content [" 3 - 5 |Opal", "", "7-6|Jade"] =
        before ++ line :: after ∧ (∃ rows, Row.readFrom 1 before = .ok rows) ∧
      Row.read line ((1 + before.length : Nat) : Int) = .error inner ∧
      .malformed 0 (.inRow 2 (.emptyRange 7 6)) = Row.errorAt (1 + before.length) inner) ∧
    Table.jewels.CoveredBy ["Ruby", "Pearl"] ∧
    ∃ root s roll node t table,
      ((Roller.mk .jewels SplitMix.source 3).resolve "/" .root
        (.toPath "/jewels")).runFrom (.start default 0 (.empty default)) = (.ok root, s) ∧
      (Roller.mk .jewels (Replay.start 0 #[2]).source 3).reroll [0]
        root .root = .ok roll ∧
      roll.runFrom (.start default 0 (.empty default)) = (.ok node, t) ∧
      node.Below 0 (.table table) ∧ table.rows.map RowRoll.total = [2] ∧
      ∀ row ∈ table.rows, row.FromLine ["Ruby", "Pearl"] := by
  have hread : Definition.ofDocument "/jewels" (.map jewelEntries) = .ok (.table .jewels) := by
    with_unfolding_all rfl
  have hnone : ∀ line ∈ (["Ruby", "", "  ", "Pearl"] : List Text), ∀ head,
      ¬ Row.Declares line head := by
    simp only [Row.forall_not_declares_iff]
    decide +kernel
  obtain ⟨hblank, hrows, _, htable⟩ := rows_number_and_cover ["Ruby", "", "  ", "Pearl"]
  obtain ⟨hcovered, _, hreached⟩ := htable "/jewels" jewelEntries .jewels rfl hread rfl hnone
  obtain ⟨_, hnumbered⟩ := hrows Table.jewels.rows (by with_unfolding_all rfl)
  obtain ⟨_, _, herror, _⟩ := rows_number_and_cover [" 3 - 5 |Opal", "", "7-6|Jade"]
  refine ⟨hblank _ (.keep _ (.remove rfl (.remove rfl (.keep _ .nil)))), hnumbered 1 _ rfl,
    herror _ (by with_unfolding_all rfl), hcovered, ?_⟩
  obtain ⟨root, s, hroot, hany⟩ := Roll.exists_ok_of_any
    (m := (Roller.mk .jewels SplitMix.source 3).resolve "/" .root
      (.toPath "/jewels"))
    (s := .start default 0 (.empty default))
    (p := fun root => ((Roller.mk .jewels (Replay.start 0 #[2]).source 3).reroll [0] root
      .root).toOption.any fun roll =>
        (roll.runFrom (.start default 0 (.empty default))).1.toOption.any fun node =>
          match node with
          | .table table =>
            table.rows.map RowRoll.total = [2] ∧ table.ref.instructions = .plain
          | _ => false)
    (by decide +kernel)
  have hreachable : Roller.ReachableBy (Roller.Keeps .jewels) root :=
    .resolved _ (Roller.keeps_jewels SplitMix.source_bounded 3) _ _ _ hroot
  cases hreroll : (Roller.mk .jewels (Replay.start 0 #[2]).source 3).reroll [0] root .root with
  | error fault =>
    rw [hreroll] at hany
    cases hany
  | ok roll =>
    rw [hreroll] at hany
    obtain ⟨node, t, hnode, hany⟩ := Roll.exists_ok_of_any hany
    cases node with
    | table table =>
      obtain ⟨htotals, hplain⟩ : table.rows.map RowRoll.total = [2] ∧
          table.ref.instructions = .plain := by simpa using hany
      have hagain : Roller.ReachableBy (Roller.Keeps .jewels) (.table table) :=
        .rerolled _ (Roller.keeps_jewels (Replay.source_bounded _) 3) .root _ hreachable hreroll
          hnode
      have hconforms : table.Conforms .jewels :=
        Roller.conforms_of_reachable .jewels (.table table)
          (.rerolled _ (by rfl) .root _ (.resolved _ (by rfl) _ _ _ hroot) hreroll hnode) 0 _
          (.self _)
      have hsame : table.table = .jewels := Definition.table.inj
        (List.mem_singleton.1 (List.mem_of_find?_eq_some hconforms.registered))
      have hleaves : table.ref.instructions.LeavesTotal := by
        rw [hplain]
        exact ⟨rfl, rfl, rfl⟩
      exact ⟨root, s, roll, _, t, table, hroot, hreroll, hnode, .self _, htotals,
        hreached _ hagain 0 table (.self _) hsame hleaves⟩
    | bundle bundle => cases hany
    | leaf ref path => cases hany

end RandomTables
