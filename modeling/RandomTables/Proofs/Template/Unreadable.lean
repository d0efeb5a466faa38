import RandomTables.Proofs.Definition.Sides
import RandomTables.Proofs.Dice.Unreadable
import RandomTables.Proofs.Template.Balanced

/-!
# Runs that stop the readers of templates and rows

Of everything that a template may hold, only the dice of a computed value let a run of digit signs
through that denotes no number. The run stands in the template then, and so it does in the row or
in one of the lines that were read.
-/
namespace RandomTables

namespace Template

/-! ## Markers -/

/-- The text of a marker starts the text after its opening, and what comes after the marker ends
it. -/
theorem takeBody_parts {double : Bool} {around : List Bool} {s body after : Text}
    (h : takeBody double around s = some (body, after)) : body <+: s ∧ after <:+ s := by
  fun_induction takeBody double around s generalizing body after with
  | case1 | case2 | case4 => cases h
  | case7 =>
    obtain ⟨rfl, rfl⟩ := Prod.mk.inj (Option.some.inj h)
    exact ⟨ List.nil_prefix, (List.suffix_cons _ _).trans (List.suffix_cons _ _)⟩
  | case9 | case12 =>
    obtain ⟨rfl, rfl⟩ := Prod.mk.inj (Option.some.inj h)
    exact ⟨ List.nil_prefix, List.suffix_cons _ _⟩
  | case3 | case5 | case8 =>
    -- Two characters belong to the text before what is left of it.
    rename_i ih
    obtain ⟨⟨more, rest⟩, hmore, hparts⟩ := Option.map_eq_some_iff.1 h
    obtain ⟨rfl, rfl⟩ := Prod.mk.inj hparts
    obtain ⟨hbody, hafter⟩ := ih hmore
    refine ⟨?_, (hafter.trans (List.suffix_cons _ _)).trans (List.suffix_cons _ _)⟩
    simpa only [List.cons_prefix_cons, true_and] using hbody
  | case6 | case10 | case11 | case13 | case14 =>
    rename_i ih
    obtain ⟨⟨more, rest⟩, hmore, hparts⟩ := Option.map_eq_some_iff.1 h
    obtain ⟨rfl, rfl⟩ := Prod.mk.inj hparts
    obtain ⟨hbody, hafter⟩ := ih hmore
    refine ⟨?_, hafter.trans (List.suffix_cons _ _)⟩
    simpa only [List.cons_prefix_cons, true_and] using hbody

theorem referenceAt_ne_numeral {position : Int} {body : Text} {name : Option Text} {run : Text} :
    referenceAt position body name ≠ .error (.numeral run) := by
  unfold referenceAt
  split
  · exact nofun
  · exact nofun

theorem applyModifier_ne_numeral {position : Int} {key : Text} {p : Placeholder}
    {modifier run : Text} : applyModifier position key p modifier ≠ .error (.numeral run) := by
  unfold applyModifier
  dsimp only
  repeat' split
  all_goals exact nofun

theorem placeholder_ne_numeral {position : Int} {body run : Text} :
    placeholder position body ≠ .error (.numeral run) := by
  have hmodifiers : ∀ (key : Text) (modifiers : List Text) (p : Placeholder),
      modifiers.foldlM (applyModifier position key) p ≠ .error (.numeral run) := by
    intro key modifiers
    induction modifiers with
    | nil => exact fun p => nofun
    | cons modifier rest ih =>
      intro p h
      rw [List.foldlM_cons] at h
      cases hmodifier : applyModifier position key p modifier with
      | error e =>
        rw [hmodifier] at h
        obtain rfl := Except.error.inj h
        exact applyModifier_ne_numeral hmodifier
      | ok next =>
        rw [hmodifier] at h
        exact ih next h
  unfold placeholder
  dsimp only
  split
  · exact nofun
  · split
    · exact nofun
    · exact hmodifiers _ _ _

theorem unreadable_of_namedAt {position start : Int} {s run : Text}
    (h : namedAt position start s = .error (.numeral run)) : run.UnreadableIn s := by
  unfold namedAt at h
  dsimp only at h
  split at h
  · cases h
  · split at h
    · cases h
    · next rest hrest =>
      split at h
      · exact absurd h referenceAt_ne_numeral
      · split at h
        · cases h
        · cases h
        · next run' hread =>
          obtain rfl := TemplateError.numeral.inj (Except.error.inj h)
          exact (Dice.Expr.unreadable_of_read hread).mono (Text.suffix_of_cut hrest).isInfix

theorem unreadable_of_doubleMarker {position : Int} {body run : Text}
    (h : doubleMarker position body = .error (.numeral run)) : run.UnreadableIn body := by
  unfold doubleMarker at h
  dsimp only at h
  split at h
  · next s hs =>
    have hstands : s <:+: body :=
      (List.suffix_cons _ s).isInfix.trans (hs ▸ Text.infix_trim body)
    exact (unreadable_of_namedAt (map_eq_error_iff.1 h)).mono hstands
  · split at h
    · exact absurd (map_eq_error_iff.1 h) referenceAt_ne_numeral
    · split at h
      · cases h
      · split at h
        · cases h
        · cases h

/-! ## Templates -/

theorem unreadable_of_components {position : Int} {plain s run : Text}
    (h : components position plain s = .error (.numeral run)) : run.UnreadableIn s := by
  fun_induction components position plain s with
  | case1 | case2 | case5 | case10 => cases h
  | case3 position plain c rest _ ih =>
    exact (ih h).mono ((List.suffix_cons c rest).trans (List.suffix_cons _ _)).isInfix
  | case4 position plain c rest _ ih => exact (ih h).mono (List.suffix_cons _ _).isInfix
  | case13 position plain c rest _ _ _ _ ih => exact (ih h).mono (List.suffix_cons c rest).isInfix
  | case6 position plain rest body after hbody _ e hmarker =>
    obtain rfl := Except.error.inj h
    have hstands : body <:+: rest := (takeBody_parts hbody).1.isInfix
    exact (unreadable_of_doubleMarker hmarker).mono (List.infix_cons (List.infix_cons hstands))
  | case7 position plain rest body after hbody _ c _ ih =>
    have hstands : after <:+: rest := (takeBody_parts hbody).2.isInfix
    exact (ih (map_eq_error_iff.1 h)).mono (List.infix_cons (List.infix_cons hstands))
  | case8 position plain rest body after hbody _ head _ e hinner ih =>
    obtain rfl := Except.error.inj h
    have hstands : body.drop head.length <:+: rest :=
      (List.drop_suffix _ _).isInfix.trans (takeBody_parts hbody).1.isInfix
    exact (ih hinner).mono (List.infix_cons (List.infix_cons hstands))
  | case9 position plain rest body after hbody _ head _ inner _ _ ih =>
    have hstands : after <:+: rest := (takeBody_parts hbody).2.isInfix
    exact (ih (map_eq_error_iff.1 h)).mono (List.infix_cons (List.infix_cons hstands))
  | case11 position plain rest _ body after _ _ e hplaceholder =>
    obtain rfl := Except.error.inj h
    exact absurd hplaceholder placeholder_ne_numeral
  | case12 position plain rest _ body after hbody _ p _ ih =>
    have hstands : after <:+: rest := (takeBody_parts hbody).2.isInfix
    exact (ih (map_eq_error_iff.1 h)).mono (List.infix_cons hstands)

/-- A run of digit signs that a template is refused for stands in it, and one of its signs has no
place value. -/
theorem unreadable_of_read {s run : Text} {offset : Int}
    (h : read s offset = .error (.numeral run)) : run.UnreadableIn s :=
  unreadable_of_components h

/-! ## Templates that hold such a run -/

variable {run : Text}

/-- The template of a value whose dice are a run. -/
def valueOf (run : Text) : Text := "[[@n:" ++ run ++ "]]"

theorem valueOf_eq (run : Text) : valueOf run = .char '[' :: .char '[' ::
    (.char '@' :: .char 'n' :: .char ':' :: run ++ [.char ']', .char ']']) := rfl

theorem looksLikeReference_of_unreadable (h : run.UnreadableIn run) :
    looksLikeReference run = false := by
  cases run with
  | nil => rfl
  | cons c rest =>
    exact looksLikeReference_of_isDigitSign (h.digitSigns c (List.mem_cons_self ..)) rest

theorem namedAt_of_unreadable (h : run.UnreadableIn run) (position start : Int) :
    namedAt position start (.char 'n' :: .char ':' :: run) = .error (.numeral run) := by
  have hcut : Text.cut ':' (.char 'n' :: .char ':' :: run) = ([.char 'n'], some run) := rfl
  have htrim : Text.trim run = run :=
    Text.trim_of_not_isBlank fun c hc => Text.isBlank_of_isDigitSign (h.digitSigns c hc)
  have hname : Text.isName (Text.trim [.char 'n']) = true := by decide +kernel
  simp only [namedAt, hcut, hname, htrim, looksLikeReference_of_unreadable h,
    Dice.Expr.read_of_unreadable h]
  rfl

theorem doubleMarker_of_unreadable (h : run.UnreadableIn run) (position : Int) :
    doubleMarker position (.char '@' :: .char 'n' :: .char ':' :: run) = .error (.numeral run) := by
  have htrim : Text.trim (.char '@' :: .char 'n' :: .char ':' :: run) =
      .char '@' :: .char 'n' :: .char ':' :: run := by
    refine Text.trim_of_not_isBlank ?_
    intro c hc
    rcases List.mem_cons.1 hc with rfl | hc
    · rfl
    rcases List.mem_cons.1 hc with rfl | hc
    · rfl
    rcases List.mem_cons.1 hc with rfl | hc
    · rfl
    · exact Text.isBlank_of_isDigitSign (h.digitSigns c hc)
  rw [doubleMarker]
  simp only [htrim, namedAt_of_unreadable h]
  rfl

/-- A template that computes a value from a run is refused for the run. -/
theorem read_of_unreadable (h : run.UnreadableIn run) (offset : Int) :
    read (valueOf run) offset = .error (.numeral run) := by
  have hbody : takeBody true [] (.char '@' :: .char 'n' :: .char ':' :: run ++
      [.char ']', .char ']']) = some (.char '@' :: .char 'n' :: .char ':' :: run, []) := by
    have hname : Balanced "@n:" := .of_unmarked (by decide)
    have hrun : Balanced run := .of_unmarked fun c hc =>
      isUnmarked_of_isDigitSign (h.digitSigns c hc)
    exact takeBody_double (hname.append hrun) []
  rw [read, valueOf_eq, components]
  split
  · next hnone =>
    rw [hbody] at hnone
    cases hnone
  · next body after hsome =>
    rw [hbody] at hsome
    obtain ⟨rfl, rfl⟩ := Prod.mk.inj (Option.some.inj hsome)
    rw [doubleMarker_of_unreadable h]

end Template

/-! ## Rows -/

namespace Row

theorem unreadable_of_read {line run : Text} {position : Int}
    (h : read line position = .error (.numeral run)) : run.UnreadableIn line := by
  unfold read at h
  split at h
  · split at h
    · cases h
    · exact (Template.unreadable_of_read (map_eq_error_iff.1 h)).mono
        (List.drop_suffix _ _).isInfix
  · exact Template.unreadable_of_read (map_eq_error_iff.1 h)

theorem unreadable_of_readFrom {position : Nat} {lines : List Text} {run : Text}
    (h : readFrom position lines = .error (.numeral run)) :
    ∃ line ∈ lines, run.UnreadableIn line := by
  induction lines generalizing position with
  | nil => cases h
  | cons line lines ih =>
    rw [readFrom] at h
    split at h
    · cases h
    · next run' hread =>
      obtain rfl := TemplateError.numeral.inj (Except.error.inj h)
      exact ⟨line, List.mem_cons_self .., unreadable_of_read hread⟩
    · obtain ⟨other, hother, hrun⟩ := ih (map_eq_error_iff.1 h)
      exact ⟨other, List.mem_cons_of_mem _ hother, hrun⟩

/-- A run of digit signs that some lines are refused for stands in one of them. -/
theorem unreadable_of_readAll {lines : List Text} {run : Text}
    (h : readAll lines = .error (.numeral run)) : ∃ line ∈ lines, run.UnreadableIn line := by
  obtain ⟨line, hline, hrun⟩ := unreadable_of_readFrom h
  exact ⟨line, (List.mem_filter.1 hline).1, hrun⟩

/-! ## Rows that hold such a run -/

variable {run : Text}

theorem read_of_unreadable (h : run.UnreadableIn run) (position : Int) :
    read (Template.valueOf run) position = .error (.numeral run) := by
  have hdigits : (Template.valueOf run).takeWhile Text.isDecimal = [] := by
    have hopen : ¬ Text.isDecimal (.char '[') := by decide +kernel
    rw [Template.valueOf_eq, List.takeWhile_cons_of_neg hopen]
  have htrim : Text.trimStart (Template.valueOf run) = Template.valueOf run :=
    Text.trimStart_cons_of_not_isBlank rfl
  have hhead : head? (Template.valueOf run) = none := by
    simp [head?, bound?, htrim, hdigits, Text.numeral?]
  simp only [read, hhead, Template.read_of_unreadable h]
  rfl

theorem readAll_of_unreadable (h : run.UnreadableIn run) :
    readAll [Template.valueOf run] = .error (.numeral run) := by
  have hblank : Text.allBlank (Template.valueOf run) = false := rfl
  simp [readAll, hblank, readFrom, read_of_unreadable h]

end Row
end RandomTables
