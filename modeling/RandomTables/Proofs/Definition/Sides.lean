import RandomTables.Definition.OfDocument
import RandomTables.Proofs.Dice.Sides
import RandomTables.Proofs.Fallible

/-!
# Definitions whose dice have sides

Dice reach a definition on four ways: from its own entry, from the options of a reference, from a
value that is computed in a text, and, for a table without dice of its own, from the totals of its
rows. The first three are read from text, so their dice have sides. The fourth is where a die
without sides can come from: it has none exactly if no row is selected by a total above zero.
-/
namespace RandomTables

theorem Bindings.mem_put {α : Type} {name : Text} {value : α} {entries : List (Text × α)}
    {e : Text × α} (h : e ∈ put name value entries) : e ∈ entries ∨ e = (name, value) := by
  induction entries with
  | nil => exact .inr (List.mem_singleton.1 h)
  | cons entry rest ih =>
    obtain ⟨key, old⟩ := entry
    rw [put] at h
    split at h
    · next hkey =>
      subst hkey
      rcases List.mem_cons.1 h with rfl | h
      · exact .inr rfl
      · exact .inl (List.mem_cons_of_mem _ h)
    · rcases List.mem_cons.1 h with rfl | h
      · exact .inl (List.mem_cons_self ..)
      · rcases ih h with h | rfl
        · exact .inl (List.mem_cons_of_mem _ h)
        · exact .inr rfl

/-- An entry after a name is bound was there before, or is the new one. -/
theorem Bindings.mem_set {α : Type} {b : Bindings α} {name : Text} {value : α} {e : Text × α}
    (h : e ∈ (b.set name value).entries) : e ∈ b.entries ∨ e = (name, value) := mem_put h

/-! ## References -/

/-- The dice that the instructions ask for, if any, have sides. -/
def Instructions.HasSides (i : Instructions) : Prop := ∀ e, i.dice = some e → e.HasSides

/-- The dice that the reference asks for, if any, have sides. -/
def Reference.HasSides (ref : Reference) : Prop := ref.instructions.HasSides

/-- The dice that the reference asks for, if any, are regular. -/
def Reference.Regular (ref : Reference) : Prop := ∀ e, ref.instructions.dice = some e → e.Regular

theorem Reference.Regular.hasSides {ref : Reference} (h : ref.Regular) : ref.HasSides :=
  fun e he => (h e he).hasSides

instance (i : Instructions) : Decidable i.HasSides :=
  inferInstanceAs (Decidable (∀ e ∈ i.dice, e.HasSides))

instance (ref : Reference) : Decidable ref.HasSides :=
  inferInstanceAs (Decidable ref.instructions.HasSides)

theorem Instructions.diceUnder_regular {options : List (Scalar × Document)}
    {dice : Option Dice.Expr} (h : diceUnder options = .ok dice) :
    ∀ e, dice = some e → e.Regular := by
  rintro e rfl
  unfold diceUnder at h
  split at h
  · cases h
  · next value _ =>
    obtain ⟨read, hread, hsome⟩ := map_eq_ok_iff.1 h
    obtain rfl := Option.some.inj hsome
    cases hvalue : Dice.Expr.read value.display 0 with
    | error fault =>
      rw [hvalue] at hread
      cases hread
    | ok found =>
      rw [hvalue] at hread
      obtain rfl := Except.ok.inj hread
      exact Dice.Expr.read_regular hvalue

theorem Instructions.ofOptions_regular {options : List (Scalar × Document)} {i : Instructions}
    (h : ofOptions options = .ok i) : ∀ e, i.dice = some e → e.Regular := by
  unfold ofOptions at h
  obtain ⟨_, _, h⟩ := bind_eq_ok_iff.1 h
  obtain ⟨repeats, _, h⟩ := bind_eq_ok_iff.1 h
  obtain ⟨dice, hdice, h⟩ := bind_eq_ok_iff.1 h
  obtain ⟨total, _, h⟩ := bind_eq_ok_iff.1 h
  obtain ⟨modifier, _, h⟩ := bind_eq_ok_iff.1 h
  obtain ⟨ignore, _, h⟩ := bind_eq_ok_iff.1 h
  obtain ⟨store, _, h⟩ := bind_eq_ok_iff.1 h
  obtain rfl := Except.ok.inj h
  exact diceUnder_regular hdice

namespace Reference

theorem ofText_regular {s : Text} {ref : Reference} (h : ofText s = .ok ref) : ref.Regular := by
  unfold ofText at h
  split at h
  · obtain rfl := Except.ok.inj h
    intro e he
    cases he
  · obtain ⟨i, hi, rfl⟩ := map_eq_ok_iff.1 h
    exact Instructions.ofOptions_regular hi

theorem readReference_hasSides {s : Text} {ref : Reference}
    (h : Template.readReference s = .ok ref) : ref.HasSides := by
  unfold Template.readReference at h
  dsimp only at h
  split at h
  · cases h
  · split at h
    · next found hfound =>
      obtain rfl := Except.ok.inj h
      exact (ofText_regular hfound).hasSides
    · cases h

theorem ofDocument_hasSides {path : Text} {raw : Document} {ref : Reference}
    (h : ofDocument path raw = .ok ref) : ref.HasSides := by
  unfold ofDocument at h
  split at h
  · split at h
    · next found hfound =>
      obtain rfl := Except.ok.inj h
      exact readReference_hasSides hfound
    · cases h
    · cases h
  · split at h
    · cases h
    · split at h
      · next i hi =>
        obtain rfl := Except.ok.inj h
        exact fun e he => (Instructions.ofOptions_regular hi e he).hasSides
      · cases h
      · cases h
  · cases h

theorem ofDocuments_hasSides {path : Text} {raws : List Document} {refs : List Reference}
    (h : ofDocuments path raws = .ok refs) : ∀ ref ∈ refs, ref.HasSides := by
  induction raws generalizing refs with
  | nil =>
    obtain rfl := Except.ok.inj h
    simp
  | cons raw raws ih =>
    obtain ⟨first, hfirst, h⟩ := bind_eq_ok_iff.1 h
    obtain ⟨rest, hrest, h⟩ := bind_eq_ok_iff.1 h
    obtain rfl := Except.ok.inj h
    intro ref href
    rcases List.mem_cons.1 href with rfl | href
    · exact ofDocument_hasSides hfirst
    · exact ih hrest ref href

end Reference

/-! ## Templates -/

mutual

/-- The dice that a component can roll, or ask a reference to roll, are regular. -/
def Component.Regular : Component → Prop
  | .plain _ => True
  | .input _ => True
  | .computed _ e => e.Regular
  | .percent _ _ inner => Component.AllRegular inner
  | .reference ref _ => ref.Regular

/-- The dice of all components of a template are regular. -/
def Component.AllRegular : List Component → Prop
  | [] => True
  | c :: rest => c.Regular ∧ Component.AllRegular rest

end

mutual

/-- The dice that a component can roll, or ask a reference to roll, have sides. -/
def Component.HasSides : Component → Prop
  | .plain _ => True
  | .input _ => True
  | .computed _ e => e.HasSides
  | .percent _ _ inner => Component.AllHaveSides inner
  | .reference ref _ => ref.HasSides

/-- The same of all components of a template. -/
def Component.AllHaveSides : List Component → Prop
  | [] => True
  | c :: rest => c.HasSides ∧ Component.AllHaveSides rest

end

namespace Component

@[simp] theorem allHaveSides_cons_iff {c : Component} {rest : List Component} :
    AllHaveSides (c :: rest) ↔ c.HasSides ∧ AllHaveSides rest := by
  rw [AllHaveSides]

@[simp] theorem allRegular_cons_iff {c : Component} {rest : List Component} :
    AllRegular (c :: rest) ↔ c.Regular ∧ AllRegular rest := by
  rw [AllRegular]

theorem allRegular_append {first rest : List Component} (hfirst : AllRegular first)
    (hrest : AllRegular rest) : AllRegular (first ++ rest) := by
  induction first with
  | nil => exact hrest
  | cons c first ih =>
    rw [allRegular_cons_iff] at hfirst
    exact allRegular_cons_iff.2 ⟨hfirst.1, ih hfirst.2⟩

mutual

theorem Regular.hasSides : (c : Component) → c.Regular → c.HasSides
  | .plain _, _ => by rw [HasSides]; trivial
  | .input _, _ => by rw [HasSides]; trivial
  | .computed _ e, h => by
    rw [Regular] at h
    rw [HasSides]
    exact h.hasSides
  | .percent _ _ inner, h => by
    rw [Regular] at h
    rw [HasSides]
    exact AllRegular.allHaveSides inner h
  | .reference ref _, h => by
    rw [Regular] at h
    rw [HasSides]
    exact h.hasSides

theorem AllRegular.allHaveSides : (cs : List Component) → AllRegular cs → AllHaveSides cs
  | [], _ => by rw [AllHaveSides]; trivial
  | c :: rest, h => by
    rw [allRegular_cons_iff] at h
    exact allHaveSides_cons_iff.2 ⟨Regular.hasSides c h.1, AllRegular.allHaveSides rest h.2⟩

end

end Component

namespace Template
open Component (AllHaveSides AllRegular)

theorem flush_allRegular (plain : Text) : AllRegular (flush plain) := by
  unfold flush
  split
  · simp [AllRegular]
  · simp [AllRegular, Component.Regular]

theorem referenceAt_regular {position : Int} {body : Text} {name : Option Text} {c : Component}
    (h : referenceAt position body name = .ok c) : c.Regular := by
  unfold referenceAt at h
  split at h
  · next ref href =>
    obtain rfl := Except.ok.inj h
    rw [Component.Regular]
    exact Reference.ofText_regular href
  · cases h

theorem namedAt_regular {position start : Int} {s : Text} {c : Component}
    (h : namedAt position start s = .ok c) : c.Regular := by
  unfold namedAt at h
  dsimp only at h
  split at h
  · cases h
  · split at h
    · cases h
    · split at h
      · exact referenceAt_regular h
      · split at h
        · next e he =>
          obtain rfl := Except.ok.inj h
          rw [Component.Regular]
          exact Dice.Expr.read_regular he
        · cases h
        · cases h

theorem doubleMarker_regular {position : Int} {body : Text} {c : Component}
    (h : doubleMarker position body = .ok (.component c)) : c.Regular := by
  unfold doubleMarker at h
  dsimp only at h
  split at h
  · obtain ⟨c', hnamed, hc⟩ := map_eq_ok_iff.1 h
    obtain rfl := Marker.component.inj hc
    exact namedAt_regular hnamed
  · split at h
    · obtain ⟨c', href, hc⟩ := map_eq_ok_iff.1 h
      obtain rfl := Marker.component.inj hc
      exact referenceAt_regular href
    · split at h
      · cases h
      · split at h
        · cases h
        · cases h

theorem components_allRegular {position : Int} {plain s : Text} {cs : List Component}
    (h : components position plain s = .ok cs) : AllRegular cs := by
  fun_induction components position plain s generalizing cs with
  | case1 | case2 =>
    obtain rfl := Except.ok.inj h
    exact flush_allRegular _
  | case3 | case4 | case13 =>
    rename_i ih
    exact ih h
  | case5 | case6 | case8 | case10 | case11 => cases h
  | case7 =>
    rename_i hmarker ih
    obtain ⟨more, hmore, rfl⟩ := map_eq_ok_iff.1 h
    refine Component.allRegular_append (flush_allRegular _) ?_
    exact Component.allRegular_cons_iff.2 ⟨doubleMarker_regular hmarker, ih hmore⟩
  | case9 =>
    rename_i head _ inner hinner ihInner ih
    obtain ⟨more, hmore, rfl⟩ := map_eq_ok_iff.1 h
    refine Component.allRegular_append (flush_allRegular _) ?_
    refine Component.allRegular_cons_iff.2 ⟨?_, ih hmore⟩
    rw [Component.Regular]
    exact ihInner hinner
  | case12 =>
    rename_i ih
    obtain ⟨more, hmore, rfl⟩ := map_eq_ok_iff.1 h
    refine Component.allRegular_append (flush_allRegular _) ?_
    refine Component.allRegular_cons_iff.2 ⟨?_, ih hmore⟩
    rw [Component.Regular]
    trivial

/-- Whatever dice are read with a template are regular. -/
theorem read_allRegular {s : Text} {offset : Int} {cs : List Component}
    (h : read s offset = .ok cs) : AllRegular cs := components_allRegular h

/-- Whatever dice are read with a template have sides. -/
theorem read_allHaveSides {s : Text} {offset : Int} {cs : List Component}
    (h : read s offset = .ok cs) : AllHaveSides cs :=
  Component.AllRegular.allHaveSides cs (read_allRegular h)

end Template

/-! ## Definitions -/

theorem Row.read_hasSides {line : Text} {position : Int} {row : Row}
    (h : Row.read line position = .ok row) : Component.AllHaveSides row.template := by
  unfold Row.read at h
  split at h
  · split at h
    · cases h
    · obtain ⟨template, htemplate, rfl⟩ := map_eq_ok_iff.1 h
      exact Template.read_allHaveSides htemplate
  · obtain ⟨template, htemplate, rfl⟩ := map_eq_ok_iff.1 h
    exact Template.read_allHaveSides htemplate

/-- The greatest total of a row is not below zero, since it is given by digits or by a place. -/
theorem Row.read_max_nonneg {line : Text} {position : Int} {row : Row} (hposition : 0 ≤ position)
    (h : Row.read line position = .ok row) : 0 ≤ row.range.max := by
  unfold Row.read at h
  split at h
  · next head _ =>
    split at h
    · cases h
    · next range hrange =>
      obtain ⟨template, _, rfl⟩ := map_eq_ok_iff.1 h
      obtain ⟨_, hrange⟩ := Option.dite_none_right_eq_some.1 hrange
      obtain rfl := Option.some.inj hrange
      exact Int.natCast_nonneg head.high
  · obtain ⟨template, _, rfl⟩ := map_eq_ok_iff.1 h
    exact hposition

/-- Each row is read from a line with its number. -/
theorem Row.exists_read_of_mem {position : Nat} {lines : List Text} {rows : List Row}
    (h : Row.readFrom position lines = .ok rows) :
    ∀ row ∈ rows, ∃ (line : Text) (number : Nat), Row.read line number = .ok row := by
  induction lines generalizing position rows with
  | nil =>
    obtain rfl := Except.ok.inj h
    simp
  | cons line lines ih =>
    unfold Row.readFrom at h
    split at h
    · cases h
    · cases h
    · next first hfirst =>
      obtain ⟨rest, hrest, rfl⟩ := map_eq_ok_iff.1 h
      intro row hrow
      rcases List.mem_cons.1 hrow with rfl | hrow
      · exact ⟨line, position, hfirst⟩
      · exact ih hrest row hrow

/-- The dice that the parts of the table can roll have sides. -/
structure Table.PartsHaveSides (t : Table) : Prop where
  rows : ∀ row ∈ t.rows, Component.AllHaveSides row.template
  inputs : ∀ e ∈ t.inputs.entries, e.2.HasSides
  extra : ∀ template, t.extra = some template → Component.AllHaveSides template

/-- The dice that the parts of the definition can roll have sides. -/
def Definition.PartsHaveSides : Definition → Prop
  | table t => t.PartsHaveSides
  | bundle b => ∀ ref ∈ b.refs, ref.HasSides

/-- A table that has only the die that fits its rows, where this is a die without sides. -/
def Table.LacksDie (t : Table) : Prop :=
  t.dice = .dice 1 0 false ∧ ∀ row ∈ t.rows, row.range.max ≤ 0

/-- The dice of the table have sides, or it lacks a die. -/
def Table.DiceFit (t : Table) : Prop := t.dice.HasSides ∨ t.LacksDie

namespace Definition

theorem le_foldl_max (rows : List Row) (start : Int) :
    start ≤ rows.foldl (fun high r => max high r.range.max) start ∧
      ∀ row ∈ rows, row.range.max ≤ rows.foldl (fun high r => max high r.range.max) start := by
  induction rows generalizing start with
  | nil => simp
  | cons first rows ih =>
    obtain ⟨hstart, hrows⟩ := ih (max start first.range.max)
    rw [List.foldl_cons]
    refine ⟨by omega, ?_⟩
    intro row hrow
    rcases List.mem_cons.1 hrow with rfl | hrow
    · omega
    · exact hrows row hrow

/-- The die that fits some rows has sides, unless no row is selected by a total above zero. -/
theorem defaultDice_fits {path : Text} {rows : List Row} {e : Dice.Expr}
    (hnonneg : ∀ row ∈ rows, 0 ≤ row.range.max) (h : defaultDice path rows = .ok e) :
    e.HasSides ∨ e = .dice 1 0 false ∧ ∀ row ∈ rows, row.range.max ≤ 0 := by
  cases rows with
  | nil => cases h
  | cons first rows =>
    obtain rfl := Except.ok.inj h
    obtain ⟨hfirst, hrows⟩ := le_foldl_max rows first.range.max
    have hstart := hnonneg first List.mem_cons_self
    rcases Int.lt_or_eq_of_le (Int.le_trans hstart hfirst) with hpos | hzero
    · exact .inl (Dice.Expr.hasSides_dice_iff.2 hpos)
    · rw [← hzero] at hfirst hrows ⊢
      exact .inr ⟨rfl, List.forall_mem_cons.2 ⟨hfirst, hrows⟩⟩

theorem exists_read_of_rowsOf {path : Text} {entries : List (Scalar × Document)} {rows : List Row}
    (h : rowsOf path entries = .ok rows) :
    ∀ row ∈ rows, ∃ (line : Text) (number : Nat), Row.read line number = .ok row := by
  unfold rowsOf at h
  split at h
  · cases h
  · split at h
    · next found hfound =>
      obtain rfl := Except.ok.inj h
      exact Row.exists_read_of_mem hfound
    · cases h
    · cases h

theorem diceOf_fits {path : Text} {entries : List (Scalar × Document)} {rows : List Row}
    {e : Dice.Expr} (hnonneg : ∀ row ∈ rows, 0 ≤ row.range.max)
    (h : diceOf path entries rows = .ok e) :
    e.HasSides ∨ e = .dice 1 0 false ∧ ∀ row ∈ rows, row.range.max ≤ 0 := by
  unfold diceOf at h
  split at h
  · exact defaultDice_fits hnonneg h
  · split at h
    · next found hfound =>
      obtain rfl := Except.ok.inj h
      exact .inl (Dice.Expr.read_hasSides hfound)
    · cases h
    · cases h

theorem inputEntries_hasSides {path : Text} {inputs found : Bindings Reference}
    {entries : List (Scalar × Document)} (hinputs : ∀ e ∈ inputs.entries, e.2.HasSides)
    (h : inputEntries path inputs entries = .ok found) :
    ∀ e ∈ found.entries, e.2.HasSides := by
  induction entries generalizing inputs with
  | nil =>
    obtain rfl := Except.ok.inj h
    exact hinputs
  | cons entry entries ih =>
    obtain ⟨ref, href, h⟩ := bind_eq_ok_iff.1 h
    refine ih ?_ h
    intro e he
    rcases Bindings.mem_set he with he | rfl
    · exact hinputs e he
    · exact Reference.ofDocument_hasSides href

theorem inputsOf_hasSides {path : Text} {entries : List (Scalar × Document)}
    {inputs : Bindings Reference} (h : inputsOf path entries = .ok inputs) :
    ∀ e ∈ inputs.entries, e.2.HasSides := by
  unfold inputsOf at h
  split at h
  · obtain rfl := Except.ok.inj h
    intro e he
    cases he
  · refine inputEntries_hasSides ?_ h
    intro e he
    cases he
  · cases h

theorem extraOf_hasSides {path : Text} {entries : List (Scalar × Document)}
    {template : List Component} (h : extraOf path entries = .ok (some template)) :
    Component.AllHaveSides template := by
  unfold extraOf at h
  split at h
  · cases h
  · split at h
    · next found hfound =>
      obtain rfl := Option.some.inj (Except.ok.inj h)
      exact Template.read_allHaveSides hfound
    · cases h
    · cases h

/-- A table is put together from the parts of its document. -/
theorem parts_of_tableOf {path title : Text} {entries : List (Scalar × Document)} {t : Table}
    (h : tableOf path title entries = .ok t) :
    t.path = path ∧ rowsOf path entries = .ok t.rows ∧ diceOf path entries t.rows = .ok t.dice ∧
      inputsOf path entries = .ok t.inputs ∧ extraOf path entries = .ok t.extra := by
  obtain ⟨rows, hrows, h⟩ := bind_eq_ok_iff.1 h
  obtain ⟨dice, hdice, h⟩ := bind_eq_ok_iff.1 h
  obtain ⟨inputs, hinputs, h⟩ := bind_eq_ok_iff.1 h
  obtain ⟨extra, hextra, h⟩ := bind_eq_ok_iff.1 h
  obtain rfl := Except.ok.inj h
  exact ⟨rfl, hrows, hdice, hinputs, hextra⟩

theorem tableOf_fits {path title : Text} {entries : List (Scalar × Document)} {t : Table}
    (h : tableOf path title entries = .ok t) :
    t.path = path ∧ t.PartsHaveSides ∧ t.DiceFit := by
  obtain ⟨hpath, hrows, hdice, hinputs, hextra⟩ := parts_of_tableOf h
  have hread := exists_read_of_rowsOf hrows
  refine ⟨hpath, ⟨fun row hrow => ?_, inputsOf_hasSides hinputs, fun template htemplate => ?_⟩,
    diceOf_fits (fun row hrow => ?_) hdice⟩
  · obtain ⟨line, number, hrow⟩ := hread row hrow
    exact Row.read_hasSides hrow
  · exact extraOf_hasSides (htemplate ▸ hextra)
  · obtain ⟨line, number, hrow⟩ := hread row hrow
    exact Row.read_max_nonneg (Int.natCast_nonneg number) hrow

theorem bundleOf_hasSides {path title : Text} {entries : List (Scalar × Document)} {b : Bundle}
    (h : bundleOf path title entries = .ok b) :
    b.path = path ∧ ∀ ref ∈ b.refs, ref.HasSides := by
  unfold bundleOf at h
  split at h
  · obtain ⟨refs, hrefs, rfl⟩ := map_eq_ok_iff.1 h
    exact ⟨rfl, Reference.ofDocuments_hasSides hrefs⟩
  · cases h

/-- A definition is the bundle or the table that the entries of its document describe. -/
theorem bundleOf_or_tableOf_of_ofDocument {path : Text} {raw : Document} {d : Definition}
    (h : ofDocument path raw = .ok d) :
    ∃ title entries, raw = .map entries ∧
      ((∃ b, bundleOf path title entries = .ok b ∧ d = .bundle b) ∨
        ∃ t, tableOf path title entries = .ok t ∧ d = .table t) := by
  unfold ofDocument at h
  split at h
  · next entries =>
    dsimp only at h
    split at h
    · split at h
      · cases h
      · obtain ⟨b, hb, rfl⟩ := map_eq_ok_iff.1 h
        exact ⟨_, entries, rfl, .inl ⟨b, hb, rfl⟩⟩
    · split at h
      · obtain ⟨t, ht, rfl⟩ := map_eq_ok_iff.1 h
        exact ⟨_, entries, rfl, .inr ⟨t, ht, rfl⟩⟩
      · cases h
  · cases h

/-- All dice of a definition that is read from a document have sides, apart from the die that fits
the rows of a table where these are selected by no total above zero. -/
theorem ofDocument_fits {path : Text} {raw : Document} {d : Definition}
    (h : ofDocument path raw = .ok d) :
    d.path = path ∧ d.PartsHaveSides ∧ ∀ t, d = .table t → t.DiceFit := by
  obtain ⟨title, entries, _, ⟨b, hb, rfl⟩ | ⟨t, ht, rfl⟩⟩ := bundleOf_or_tableOf_of_ofDocument h
  · obtain ⟨hpath, hrefs⟩ := bundleOf_hasSides hb
    exact ⟨hpath, hrefs, nofun⟩
  · obtain ⟨hpath, hparts, hdice⟩ := tableOf_fits ht
    refine ⟨hpath, hparts, fun t' ht' => ?_⟩
    obtain rfl := Definition.table.inj ht'
    exact hdice

end Definition
end RandomTables
