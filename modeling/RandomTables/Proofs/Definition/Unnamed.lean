import RandomTables.Proofs.Definition.Sides

/-!
# Options without a name

The options of a reference may stand in a map, and the keys of a map need not be strings. A key that
is none is no option's name, and no fault of the document is reported for it: it ends the reading,
and with it the loading of all sources. This is what can be told from the document: it happens
exactly if such a map is come to before anything else that is wrong.
-/
namespace RandomTables

/-! ## Options -/

/-- The scalar is a string. -/
def Scalar.isText : Scalar → Bool
  | text _ => true
  | _ => false

namespace Instructions

theorem unknownNames_eq_unnamed_iff {options : List (Scalar × Document)} :
    unknownNames options = .error .unnamed ↔ ∃ e ∈ options, e.1.isText = false := by
  have hmatches : ∀ key : Scalar, (!(key matches .text _)) = true ↔ key.isText = false := by
    intro key
    cases key <;> simp [Scalar.isText]
  have hstrange : ∀ e ∈ options, e.1.isText = false →
      e.1 ∈ (options.map (·.1)).filter fun key =>
        !optionNames.any fun name => key == .text name := by
    intro e he htext
    refine List.mem_filter.2 ⟨List.mem_map_of_mem he, ?_⟩
    rw [Bool.not_eq_true', ← Bool.not_eq_true, List.any_eq_true]
    rintro ⟨name, _, hname⟩
    rw [beq_iff_eq.1 hname] at htext
    cases htext
  unfold unknownNames
  dsimp only
  constructor
  · intro h
    split at h
    · cases h
    · split at h
      · next hany =>
        obtain ⟨key, hkey, htext⟩ := List.any_eq_true.1 hany
        obtain ⟨e, he, rfl⟩ := List.mem_map.1 (List.mem_filter.1 hkey).1
        exact ⟨e, he, (hmatches e.1).1 htext⟩
      · cases h
  · rintro ⟨e, he, htext⟩
    have hmem := hstrange e he htext
    rw [if_neg (by rw [List.isEmpty_iff]; exact List.ne_nil_of_mem hmem),
      if_pos (List.any_eq_true.2 ⟨_, hmem, (hmatches e.1).2 htext⟩)]

theorem quantityUnder_ne_unnamed {options : List (Scalar × Document)} {name : Text} :
    quantityUnder options name ≠ .error .unnamed := by
  unfold quantityUnder
  split
  · exact nofun
  · intro h
    obtain ⟨fault, _, hfault⟩ := mapError_eq_error_iff.1 (map_eq_error_iff.1 h)
    cases hfault

theorem diceUnder_ne_unnamed {options : List (Scalar × Document)} :
    diceUnder options ≠ .error .unnamed := by
  unfold diceUnder
  split
  · exact nofun
  · intro h
    obtain ⟨fault, _, hfault⟩ := mapError_eq_error_iff.1 (map_eq_error_iff.1 h)
    cases hfault

theorem storeOf_ne_unnamed {d : Document} : storeOf d ≠ .error .unnamed := by
  have hitems : ∀ (items : List Document) (store : Bindings Text),
      storeItems store items ≠ .error .unnamed := by
    intro items
    induction items with
    | nil => exact fun store => nofun
    | cons item rest ih =>
      intro store
      rw [storeItems]
      dsimp only
      split
      · exact nofun
      · exact ih _
  unfold storeOf
  split
  · exact nofun
  · exact hitems _ _

/-- Options are refused for want of a name exactly if the key of one is no string: the names are
what is looked at first. -/
theorem ofOptions_eq_unnamed_iff {options : List (Scalar × Document)} :
    ofOptions options = .error .unnamed ↔ ∃ e ∈ options, e.1.isText = false := by
  rw [← unknownNames_eq_unnamed_iff]
  unfold ofOptions
  constructor
  · intro h
    rcases bind_eq_error_iff.1 h with h | ⟨_, _, h⟩
    · exact h
    rcases bind_eq_error_iff.1 h with h | ⟨_, _, h⟩
    · exact absurd h quantityUnder_ne_unnamed
    rcases bind_eq_error_iff.1 h with h | ⟨_, _, h⟩
    · exact absurd h diceUnder_ne_unnamed
    rcases bind_eq_error_iff.1 h with h | ⟨_, _, h⟩
    · exact absurd h quantityUnder_ne_unnamed
    rcases bind_eq_error_iff.1 h with h | ⟨_, _, h⟩
    · exact absurd h quantityUnder_ne_unnamed
    rcases bind_eq_error_iff.1 h with h | ⟨_, _, h⟩
    · obtain ⟨item, _, hitem⟩ := exists_of_mapM_eq_error h
      obtain ⟨fault, _, hfault⟩ := mapError_eq_error_iff.1 hitem
      cases hfault
    rcases bind_eq_error_iff.1 h with h | ⟨_, _, h⟩
    · exact absurd h storeOf_ne_unnamed
    · cases h
  · intro h
    exact bind_eq_error_iff.2 (.inl h)

end Instructions

/-! ## References -/

/-- The value is a map that names a path, as a reference does, and has a key that is no string. -/
def Document.HasUnnamedOption : Document → Prop
  | map entries => (∃ target, entry? entries "path" = some target ∧ target.isSet) ∧
      ∃ e ∈ entries, e.1.isText = false
  | _ => False

namespace Reference
variable {path : Text} {raw : Document} {error : DefinitionError}

/-- A value that is no reference is reported with the path of the definition, unless it is for want
of an option's name. -/
theorem error_of_ofDocument (h : ofDocument path raw = .error error) :
    (∃ fault, error = .malformed path fault) ∨ error = .unnamedOption := by
  unfold ofDocument at h
  split at h
  · next s =>
    split at h
    · cases h
    · obtain rfl := Except.error.inj h
      exact .inl ⟨_, rfl⟩
    · next run hrun =>
      unfold Template.readReference at hrun
      dsimp only at hrun
      split at hrun
      · cases hrun
      · split at hrun
        · cases hrun
        · cases hrun
  · split at h
    · obtain rfl := Except.error.inj h
      exact .inl ⟨_, rfl⟩
    · split at h
      · cases h
      · obtain rfl := Except.error.inj h
        exact .inr rfl
      · obtain rfl := Except.error.inj h
        exact .inl ⟨_, rfl⟩
  · obtain rfl := Except.error.inj h
    exact .inl ⟨_, rfl⟩

/-- A value is refused for want of an option's name exactly if it is a map with a path and with a
key that is no string. -/
theorem ofDocument_eq_unnamed_iff :
    ofDocument path raw = .error .unnamedOption ↔ raw.HasUnnamedOption := by
  constructor
  · intro h
    unfold ofDocument at h
    split at h
    · split at h
      · cases h
      · cases h
      · cases h
    · next entries =>
      split at h
      · cases h
      · next target htarget =>
        obtain ⟨hentry, hset⟩ := Option.filter_eq_some_iff.1 htarget
        split at h
        · cases h
        · next hoptions =>
          obtain ⟨e, he, htext⟩ := Instructions.ofOptions_eq_unnamed_iff.1 hoptions
          exact ⟨⟨target, hentry, hset⟩, e, (List.mem_filter.1 he).1, htext⟩
        · cases h
    · cases h
  · intro h
    cases raw with
    | scalar value => exact h.elim
    | list items => exact h.elim
    | map entries =>
      obtain ⟨⟨target, hentry, hset⟩, e, he, htext⟩ := h
      have hother : e.1 ≠ .text "path" := by
        rintro hpath
        rw [hpath] at htext
        cases htext
      have hoptions : Instructions.ofOptions (entries.filter fun e => e.1 != .text "path") =
          .error .unnamed :=
        Instructions.ofOptions_eq_unnamed_iff.2
          ⟨e, List.mem_filter.2 ⟨he, bne_iff_ne.2 hother⟩, htext⟩
      have htarget : (Document.entry? entries "path").filter Document.isSet = some target :=
        Option.filter_eq_some_iff.2 ⟨hentry, hset⟩
      rw [ofDocument]
      simp only [htarget, hoptions]

/-- What is wrong with a list of references is what is wrong with the first value that is none. -/
theorem ofDocuments_eq_error_iff {raws : List Document} :
    ofDocuments path raws = .error error ↔ ∃ earlier raw later, raws = earlier ++ raw :: later ∧
      (∀ other ∈ earlier, ∃ ref, ofDocument path other = .ok ref) ∧
      ofDocument path raw = .error error := by
  induction raws with
  | nil =>
    constructor
    · intro h
      cases h
    · rintro ⟨earlier, raw, later, h, _⟩
      cases earlier <;> cases h
  | cons first rest ih =>
    constructor
    · intro h
      rcases bind_eq_error_iff.1 h with h | ⟨ref, hfirst, h⟩
      · exact ⟨[], first, rest, rfl, nofun, h⟩
      · rcases bind_eq_error_iff.1 h with h | ⟨refs, _, h⟩
        · obtain ⟨earlier, raw, later, rfl, hearlier, hraw⟩ := ih.1 h
          refine ⟨first :: earlier, raw, later, rfl, ?_, hraw⟩
          intro other hother
          rcases List.mem_cons.1 hother with rfl | hother
          · exact ⟨ref, hfirst⟩
          · exact hearlier other hother
        · cases h
    · rintro ⟨earlier, raw, later, hsplit, hearlier, hraw⟩
      refine bind_eq_error_iff.2 ?_
      cases earlier with
      | nil =>
        obtain ⟨rfl, rfl⟩ := List.cons.inj hsplit
        exact .inl hraw
      | cons other earlier =>
        obtain ⟨rfl, rfl⟩ := List.cons.inj hsplit
        obtain ⟨ref, href⟩ := hearlier first (List.mem_cons_self ..)
        have hrest := ih.2 ⟨earlier, raw, later, rfl,
          fun other hother => hearlier other (List.mem_cons_of_mem _ hother), hraw⟩
        exact .inr ⟨ref, href, bind_eq_error_iff.2 (.inl hrest)⟩

end Reference

theorem Definition.inputEntries_eq_error_iff {path : Text} {error : DefinitionError}
    {inputs : Bindings Reference} {entries : List (Scalar × Document)} :
    inputEntries path inputs entries = .error error ↔
      Reference.ofDocuments path (entries.map (·.2)) = .error error := by
  induction entries generalizing inputs with
  | nil =>
    constructor
    · intro h
      cases h
    · intro h
      cases h
  | cons entry rest ih =>
    rw [inputEntries, List.map_cons, Reference.ofDocuments, bind_eq_error_iff, bind_eq_error_iff]
    refine or_congr_right ?_
    constructor
    · rintro ⟨ref, href, h⟩
      exact ⟨ref, href, bind_eq_error_iff.2 (.inl (ih.1 h))⟩
    · rintro ⟨ref, href, h⟩
      rcases bind_eq_error_iff.1 h with h | ⟨_, _, h⟩
      · exact ⟨ref, href, ih.2 h⟩
      · cases h

end RandomTables
