import RandomTables.Proofs.Definition.Unnamed
import RandomTables.Proofs.Template.Unreadable

/-!
# Errors of documents

What is wrong with a document is reported with the path that the definition was to have, with two
exceptions. A run of digit signs that denotes no number is reported alone, and it stands in one of
the texts that are read: a row, the dice, or the extra text. An option without a name is the other
exception, and needs a map with a key that is no string.
-/
namespace RandomTables

/-- The error is reported with the path, or is a run in one of the texts that denotes no number. -/
inductive DefinitionError.PointsInto (path : Text) (texts : List Text) :
    DefinitionError → Prop where
  | malformed (fault : DefinitionFault) : PointsInto path texts (.malformed path fault)
  | numeral {run s : Text} (hs : s ∈ texts) (hrun : run.UnreadableIn s) :
    PointsInto path texts (.numeral run)

theorem DefinitionError.PointsInto.mono {path : Text} {texts more : List Text}
    {error : DefinitionError} (h : error.PointsInto path texts) (hsubset : texts ⊆ more) :
    error.PointsInto path more := by
  cases h with
  | malformed fault => exact .malformed fault
  | numeral hs hrun => exact .numeral (hsubset hs) hrun

namespace Definition
variable {path : Text} {entries : List (Scalar × Document)} {error : DefinitionError}

/-! ## The texts of a document -/

/-- The lines that are read as rows. -/
def rowTexts (entries : List (Scalar × Document)) : List Text :=
  (Row.linesOf? ((Document.present? entries "rows").getD (.text ""))).getD []

def textsUnder (entries : List (Scalar × Document)) (key : Text) : List Text :=
  ((Document.present? entries key).map Document.display).toList

theorem error_of_rowsOf (h : rowsOf path entries = .error error) :
    error.PointsInto path (rowTexts entries) := by
  unfold rowsOf at h
  split at h
  · obtain rfl := Except.error.inj h
    exact .malformed _
  · next lines hlines =>
    split at h
    · cases h
    · obtain rfl := Except.error.inj h
      exact .malformed _
    · next run hread =>
      obtain rfl := Except.error.inj h
      obtain ⟨line, hline, hrun⟩ := Row.unreadable_of_readAll hread
      refine .numeral (s := line) ?_ hrun
      rw [rowTexts, hlines]
      exact hline

theorem error_of_diceOf {rows : List Row} (h : diceOf path entries rows = .error error) :
    error.PointsInto path (textsUnder entries "dice") := by
  unfold diceOf at h
  split at h
  · cases rows with
    | nil =>
      obtain rfl := Except.error.inj h
      exact .malformed _
    | cons row rows => cases h
  · next found hfound =>
    split at h
    · cases h
    · obtain rfl := Except.error.inj h
      exact .malformed _
    · next run hread =>
      obtain rfl := Except.error.inj h
      refine .numeral (s := found.display) ?_ (Dice.Expr.unreadable_of_read hread)
      simp [textsUnder, hfound]

theorem error_of_extraOf (h : extraOf path entries = .error error) :
    error.PointsInto path (textsUnder entries "extra") := by
  unfold extraOf at h
  split at h
  · cases h
  · next found hfound =>
    split at h
    · cases h
    · obtain rfl := Except.error.inj h
      exact .malformed _
    · next run hread =>
      obtain rfl := Except.error.inj h
      refine .numeral (s := found.display) ?_ (Template.unreadable_of_read hread)
      simp [textsUnder, hfound]

end Definition

/-! ## References of a document -/

namespace Document

/-- The texts of a document that are read: those of its rows, its dice and its extra text. -/
def readTexts : Document → List Text
  | map entries => Definition.rowTexts entries ++ Definition.textsUnder entries "dice" ++
      Definition.textsUnder entries "extra"
  | _ => []

/-- The values that are to be references of a document, if reading it gets as far: the list of a
bundle, or the inputs of a table after its rows and dice. -/
inductive References (path : Text) : Document → List Document → Prop where
  | bundle {entries : List (Scalar × Document)} {refs : List Document}
    (hrows : entry? entries "rows" = none) (hbundle : entry? entries "bundle" = some (.list refs)) :
    References path (map entries) refs
  | inputs {entries inputs : List (Scalar × Document)} {rows : List Row} {dice : Dice.Expr}
    (hbundle : entry? entries "bundle" = none) (hentry : (Document.entry? entries "rows").isSome)
    (hrows : Definition.rowsOf path entries = .ok rows)
    (hdice : Definition.diceOf path entries rows = .ok dice)
    (hinputs : entry? entries "inputs" = some (.map inputs)) :
    References path (map entries) (inputs.map (·.2))

/-- Reading the document comes to a reference with a key that is no string, and all references
before it are in order. -/
def EndsReading (path : Text) (raw : Document) : Prop :=
  ∃ earlier ref later, raw.References path (earlier ++ ref :: later) ∧
    (∀ other ∈ earlier, ∃ found, Reference.ofDocument path other = .ok found) ∧
    ref.HasUnnamedOption

theorem References.ends {path : Text} {raw : Document} {refs : List Document}
    (h : raw.References path refs)
    (herror : Reference.ofDocuments path refs = .error .unnamedOption) : raw.EndsReading path := by
  obtain ⟨earlier, ref, later, rfl, hearlier, href⟩ := Reference.ofDocuments_eq_error_iff.1 herror
  exact ⟨earlier, ref, later, h, hearlier, Reference.ofDocument_eq_unnamed_iff.1 href⟩

end Document

namespace Definition
variable {path : Text} {entries : List (Scalar × Document)} {error : DefinitionError}

/-- What is wrong with references is reported with the path, unless it ends the reading. -/
theorem error_of_references {raw : Document} {refs : List Document} {texts : List Text}
    (hrefs : raw.References path refs) (h : Reference.ofDocuments path refs = .error error) :
    error.PointsInto path texts ∨ error = .unnamedOption ∧ raw.EndsReading path := by
  obtain ⟨_, ref, _, _, _, href⟩ := Reference.ofDocuments_eq_error_iff.1 h
  rcases Reference.error_of_ofDocument href with ⟨fault, rfl⟩ | rfl
  · exact .inl (.malformed fault)
  · exact .inr ⟨rfl, hrefs.ends h⟩

theorem error_of_bundleOf {title : Text} (hrows : Document.entry? entries "rows" = none)
    (h : bundleOf path title entries = .error error) :
    error.PointsInto path (Document.map entries).readTexts ∨
      error = .unnamedOption ∧ (Document.map entries).EndsReading path := by
  unfold bundleOf at h
  split at h
  · next refs hrefs => exact error_of_references (.bundle hrows hrefs) (map_eq_error_iff.1 h)
  · obtain rfl := Except.error.inj h
    exact .inl (.malformed _)

theorem error_of_tableOf {title : Text} (hbundle : Document.entry? entries "bundle" = none)
    (hentry : (Document.entry? entries "rows").isSome)
    (h : tableOf path title entries = .error error) :
    error.PointsInto path (Document.map entries).readTexts ∨
      error = .unnamedOption ∧ (Document.map entries).EndsReading path := by
  rcases bind_eq_error_iff.1 h with h | ⟨rows, hrows, h⟩
  · refine .inl ((error_of_rowsOf h).mono ?_)
    exact List.Subset.trans (List.subset_append_left _ _) (List.subset_append_left _ _)
  rcases bind_eq_error_iff.1 h with h | ⟨dice, hdice, h⟩
  · refine .inl ((error_of_diceOf h).mono ?_)
    exact List.Subset.trans (List.subset_append_right _ _) (List.subset_append_left _ _)
  rcases bind_eq_error_iff.1 h with h | ⟨inputs, _, h⟩
  · unfold inputsOf at h
    split at h
    · cases h
    · next found hfound =>
      have hinputs := (Option.filter_eq_some_iff.1 hfound).1
      exact error_of_references (.inputs hbundle hentry hrows hdice hinputs)
        (inputEntries_eq_error_iff.1 h)
    · obtain rfl := Except.error.inj h
      exact .inl (.malformed _)
  rcases bind_eq_error_iff.1 h with h | ⟨extra, _, h⟩
  · exact .inl ((error_of_extraOf h).mono (List.subset_append_right _ _))
  · cases h

/-- Every error of a document comes with the path, is a run in one of its texts that denotes no
number, or is for want of an option's name. -/
theorem error_of_ofDocument {raw : Document} (h : ofDocument path raw = .error error) :
    error.PointsInto path raw.readTexts ∨ error = .unnamedOption ∧ raw.EndsReading path := by
  unfold ofDocument at h
  split at h
  · next entries =>
    dsimp only at h
    split at h
    · split at h
      · obtain rfl := Except.error.inj h
        exact .inl (.malformed _)
      · next hrows =>
        refine error_of_bundleOf ?_ (map_eq_error_iff.1 h)
        simpa using hrows
    · next hbundle =>
      split at h
      · next hrows =>
        refine error_of_tableOf ?_ hrows (map_eq_error_iff.1 h)
        simpa using hbundle
      · obtain rfl := Except.error.inj h
        exact .inl (.malformed _)
  · obtain rfl := Except.error.inj h
    exact .inl (.malformed _)

/-- A document is refused for want of an option's name exactly if it has a reference with a key that
is no string, and everything that is read before it is in order. -/
theorem ofDocument_eq_unnamed_iff {raw : Document} :
    ofDocument path raw = .error .unnamedOption ↔ raw.EndsReading path := by
  constructor
  · intro h
    rcases error_of_ofDocument h with herror | ⟨_, hends⟩
    · cases herror
    · exact hends
  · rintro ⟨earlier, ref, later, hrefs, hearlier, href⟩
    have herror := Reference.ofDocuments_eq_error_iff.2
      ⟨earlier, ref, later, rfl, hearlier, Reference.ofDocument_eq_unnamed_iff.2 href⟩
    generalize hall : earlier ++ ref :: later = refs at hrefs herror
    cases hrefs with
    | bundle hrows hbundle =>
      simp only [ofDocument, bundleOf, hbundle, hrows, herror]
      rfl
    | @inputs entries inputs rows dice hbundle hentry hrows hdice hinputs =>
      have hset : (Document.map inputs).isSet := by
        cases inputs with
        | nil => cases herror
        | cons entry rest => rfl
      have hfound : inputsOf path entries = .error .unnamedOption := by
        have hfilter := Option.filter_eq_some_iff.2 ⟨hinputs, hset⟩
        simp only [inputsOf, hfilter]
        exact inputEntries_eq_error_iff.2 herror
      have htable : ∀ title, tableOf path title entries = .error .unnamedOption := by
        intro title
        rw [tableOf, hrows]
        change (diceOf path entries rows >>= _) = _
        rw [hdice]
        change (inputsOf path entries >>= _) = _
        rw [hfound]
        rfl
      simp only [ofDocument, hbundle, hentry, htable]
      rfl

end Definition

/-! ## Documents with strings for keys -/

namespace Document

/-- All keys in the value are strings. -/
inductive HasTextKeys : Document → Prop where
  | scalar (value : Scalar) : HasTextKeys (scalar value)
  | list {items : List Document} (h : ∀ item ∈ items, HasTextKeys item) : HasTextKeys (list items)
  | map {entries : List (Scalar × Document)} (hkeys : ∀ e ∈ entries, e.1.isText)
    (hvalues : ∀ e ∈ entries, HasTextKeys e.2) : HasTextKeys (map entries)

theorem HasTextKeys.record {fields : List (Text × Document)}
    (h : ∀ f ∈ fields, f.2.HasTextKeys) : (Document.record fields).HasTextKeys := by
  refine .map (fun e he => ?_) fun e he => ?_
  all_goals obtain ⟨f, hf, rfl⟩ := List.mem_map.1 he
  · rfl
  · exact h f hf

theorem HasTextKeys.of_entry {entries : List (Scalar × Document)} {key : Text} {value : Document}
    (h : HasTextKeys (.map entries)) (hentry : entry? entries key = some value) :
    value.HasTextKeys := by
  cases h with
  | map hkeys hvalues =>
    obtain ⟨e, he, rfl⟩ := Option.map_eq_some_iff.1 hentry
    exact hvalues e (List.mem_of_find?_eq_some he)

theorem HasTextKeys.of_references {path : Text} {raw : Document} {refs : List Document}
    (h : raw.HasTextKeys) (hrefs : raw.References path refs) : ∀ ref ∈ refs, ref.HasTextKeys := by
  cases hrefs with
  | bundle hrows hbundle =>
    cases h.of_entry hbundle with
    | list hitems => exact hitems
  | inputs hbundle hentry hrows hdice hinputs =>
    cases h.of_entry hinputs with
    | map hkeys hvalues =>
      intro ref href
      obtain ⟨e, he, rfl⟩ := List.mem_map.1 href
      exact hvalues e he

/-- With strings for keys every option has a name. -/
theorem HasTextKeys.not_endsReading {raw : Document} (h : raw.HasTextKeys) (path : Text) :
    ¬ raw.EndsReading path := by
  rintro ⟨earlier, ref, later, hrefs, _, hunnamed⟩
  have href := h.of_references hrefs ref (List.mem_append_right _ (List.mem_cons_self ..))
  cases href with
  | scalar value => exact hunnamed
  | list hitems => exact hunnamed
  | map hkeys hvalues =>
    obtain ⟨_, e, he, htext⟩ := hunnamed
    rw [hkeys e he] at htext
    cases htext

end Document

/-- A document with a row that computes a value from a run is refused for the run. -/
theorem Definition.ofDocument_of_unreadable {run : Text} (h : run.UnreadableIn run) (path : Text) :
    ofDocument path (.record [("rows", .list [.text (Template.valueOf run)])]) =
      .error (.numeral run) := by
  have hrows : rowsOf path [(.text "rows", .list [.text (Template.valueOf run)])] =
      .error (.numeral run) := by
    have hlines : Row.linesOf? (.list [.text (Template.valueOf run)]) =
        some [Template.valueOf run] := rfl
    simp [rowsOf, Document.present?, Document.entry?, hlines, Row.readAll_of_unreadable h]
  have htable : ∀ title, tableOf path title
      [(.text "rows", .list [.text (Template.valueOf run)])] = .error (.numeral run) := by
    intro title
    rw [tableOf, hrows]
    rfl
  exact map_eq_error_iff.2 (htable _)

/-- An error of a template has a position, unless it is for a run that denotes no number. -/
theorem TemplateError.malformed_or_numeral {error : TemplateError} {faulty : Text → Prop}
    (h : ∀ run, error = .numeral run → faulty run) :
    (∃ position fault, error = .malformed position fault) ∨
      ∃ run, error = .numeral run ∧ faulty run := by
  cases error with
  | malformed position fault => exact .inl ⟨position, fault, rfl⟩
  | numeral run => exact .inr ⟨run, rfl, h run rfl⟩

/-- What is wrong with a text is reported with its position, and what is wrong with a document whose
keys are strings with the path of its definition. The one exception is a run of digit signs, one of
them without a place value: it is reported alone, and it stands in the text or in one of the texts
of the document. So where there is no such run, no reader makes an exception; and each of them makes
it for every such run. -/
theorem errors_of_reading (s : Text) (offset position : Int) (lines : List Text) (path : Text)
    (raw : Document) (run : Text) :
    (∀ error, Dice.Expr.read s offset = .error error →
      (∃ position fault, error = .malformed position fault) ∨
        ∃ run, error = .numeral run ∧ run.UnreadableIn s) ∧
    (∀ error, Template.read s offset = .error error →
      (∃ position fault, error = .malformed position fault) ∨
        ∃ run, error = .numeral run ∧ run.UnreadableIn s) ∧
    (∀ error, Row.read s position = .error error →
      (∃ position fault, error = .malformed position fault) ∨
        ∃ run, error = .numeral run ∧ run.UnreadableIn s) ∧
    (∀ error, Row.readAll (Text.lines s) = .error error →
      (∃ position fault, error = .malformed position fault) ∨
        ∃ run, error = .numeral run ∧ run.UnreadableIn s) ∧
    (∀ error, Row.readAll lines = .error error →
      (∃ position fault, error = .malformed position fault) ∨
        ∃ run, error = .numeral run ∧ ∃ line ∈ lines, run.UnreadableIn line) ∧
    (raw.HasTextKeys → ∀ error, Definition.ofDocument path raw = .error error →
      (∃ fault, error = .malformed path fault) ∨
        ∃ run, error = .numeral run ∧ ∃ t ∈ raw.readTexts, run.UnreadableIn t) ∧
    (run.UnreadableIn run →
      Dice.Expr.read run offset = .error (.numeral run) ∧
      Template.read (Template.valueOf run) offset = .error (.numeral run) ∧
      Row.read (Template.valueOf run) position = .error (.numeral run) ∧
      Row.readAll [Template.valueOf run] = .error (.numeral run) ∧
      Definition.ofDocument path
        (.record [("rows", .list [.text (Template.valueOf run)])]) = .error (.numeral run)) := by
  have hrows : ∀ lines error, Row.readAll lines = .error error →
      (∃ position fault, error = .malformed position fault) ∨
        ∃ run, error = .numeral run ∧ ∃ line ∈ lines, run.UnreadableIn line := by
    intro lines error h
    refine TemplateError.malformed_or_numeral fun run hrun => ?_
    exact Row.unreadable_of_readAll (hrun ▸ h)
  refine ⟨?_, ?_, ?_, ?_, hrows lines, ?_, ?_⟩
  · intro error h
    cases error with
    | malformed position fault => exact .inl ⟨position, fault, rfl⟩
    | numeral run => exact .inr ⟨run, rfl, Dice.Expr.unreadable_of_read h⟩
  · intro error h
    refine TemplateError.malformed_or_numeral fun run hrun => ?_
    exact Template.unreadable_of_read (hrun ▸ h)
  · intro error h
    refine TemplateError.malformed_or_numeral fun run hrun => ?_
    exact Row.unreadable_of_read (hrun ▸ h)
  · intro error h
    rcases hrows _ error h with hmalformed | ⟨run, rfl, line, hline, hrun⟩
    · exact .inl hmalformed
    · exact .inr ⟨run, rfl, hrun.mono (Text.infix_of_mem_lines hline)⟩
  · intro hkeys error h
    rcases Definition.error_of_ofDocument h with herror | ⟨_, hends⟩
    · cases herror with
      | malformed fault => exact .inl ⟨fault, rfl⟩
      | numeral hs hrun => exact .inr ⟨_, rfl, _, hs, hrun⟩
    · exact absurd hends (hkeys.not_endsReading path)
  · intro hrun
    exact ⟨Dice.Expr.read_of_unreadable hrun offset, Template.read_of_unreadable hrun offset,
      Row.read_of_unreadable hrun position, Row.readAll_of_unreadable hrun,
      Definition.ofDocument_of_unreadable hrun path⟩

theorem Text.superscript_unreadable : Text.UnreadableIn "²" "²" :=
  ⟨List.infix_rfl, by decide +kernel, by decide +kernel⟩

/-- Every reader that comes to a superscript two is stopped by a run that stands in its text. -/
theorem superscript_stands :
    (∃ run, Dice.Expr.read "²" 0 = .error (.numeral run) ∧ run.UnreadableIn "²") ∧
    (∃ run, Template.read "[[@n:²]]" 0 = .error (.numeral run) ∧ run.UnreadableIn "[[@n:²]]") ∧
    (∃ run, Row.read "[[@n:²]]" 1 = .error (.numeral run) ∧ run.UnreadableIn "[[@n:²]]") ∧
    (∃ run, Row.readAll (Text.lines "[[@n:²]]") = .error (.numeral run) ∧
      run.UnreadableIn "[[@n:²]]") ∧
    (∃ run, Row.readAll ["[[@n:²]]"] = .error (.numeral run) ∧
      ∃ line ∈ [("[[@n:²]]" : Text)], run.UnreadableIn line) ∧
    ∃ raw : Document, raw.HasTextKeys ∧ ∃ run,
      Definition.ofDocument "/gems" raw = .error (.numeral run) ∧
        ∃ s ∈ raw.readTexts, run.UnreadableIn s := by
  have hlines : Text.lines "[[@n:²]]" = [("[[@n:²]]" : Text)] := by decide +kernel
  have hkeys : Document.HasTextKeys (.record [("rows", .list [.text "[[@n:²]]"])]) := by
    refine .map ?_ ?_
    · intro e he
      obtain rfl := List.mem_singleton.1 he
      rfl
    · intro e he
      obtain rfl := List.mem_singleton.1 he
      refine .list fun item hitem => ?_
      obtain rfl := List.mem_singleton.1 hitem
      exact .scalar _
  obtain ⟨hdice, _⟩ := errors_of_reading "²" 0 1 [] "/gems" (.text "") "²"
  obtain ⟨_, htemplate, hrow, htext, hrows, hdocument, hall⟩ :=
    errors_of_reading "[[@n:²]]" 0 1 ["[[@n:²]]"] "/gems" _ "²"
  obtain ⟨hdiceRun, htemplateRun, hrowRun, hrowsRun, hdocumentRun⟩ :=
    hall Text.superscript_unreadable
  refine ⟨?_, ?_, ?_, ?_, ?_, _, hkeys, ?_⟩
  · rcases hdice _ hdiceRun with ⟨_, _, h⟩ | ⟨run, h, hrun⟩
    · cases h
    · exact ⟨run, hdiceRun.trans (congrArg _ h), hrun⟩
  · rcases htemplate _ htemplateRun with ⟨_, _, h⟩ | ⟨run, h, hrun⟩
    · cases h
    · exact ⟨run, htemplateRun.trans (congrArg _ h), hrun⟩
  · rcases hrow _ hrowRun with ⟨_, _, h⟩ | ⟨run, h, hrun⟩
    · cases h
    · exact ⟨run, hrowRun.trans (congrArg _ h), hrun⟩
  · have hread : Row.readAll (Text.lines "[[@n:²]]") = .error (.numeral "²") := by
      rw [hlines]
      exact hrowsRun
    rcases htext _ hread with ⟨_, _, h⟩ | ⟨run, h, hrun⟩
    · cases h
    · exact ⟨run, hread.trans (congrArg _ h), hrun⟩
  · rcases hrows _ hrowsRun with ⟨_, _, h⟩ | ⟨run, h, hrun⟩
    · cases h
    · exact ⟨run, hrowsRun.trans (congrArg _ h), hrun⟩
  · rcases hdocument hkeys _ hdocumentRun with ⟨_, h⟩ | ⟨run, h, hrun⟩
    · cases h
    · exact ⟨run, hdocumentRun.trans (congrArg _ h), hrun⟩

/-- A superscript two is a digit sign without a place value, and no reader reports where it is. -/
theorem superscript_not_malformed :
    Dice.Expr.read "²" 0 = .error (.numeral "²") ∧
    Template.read "[[@n:²]]" 0 = .error (.numeral "²") ∧
    Row.read "[[@n:²]]" 1 = .error (.numeral "²") ∧
    Row.readAll ["[[@n:²]]"] = .error (.numeral "²") ∧
    Definition.ofDocument "/gems" (.record [("rows", .list [.text "[[@n:²]]"])]) =
      .error (.numeral "²") := by
  have hrun := Text.superscript_unreadable
  exact ⟨Dice.Expr.read_of_unreadable hrun 0, Template.read_of_unreadable hrun 0,
    Row.read_of_unreadable hrun 1, Row.readAll_of_unreadable hrun,
    Definition.ofDocument_of_unreadable hrun "/gems"⟩

end RandomTables
