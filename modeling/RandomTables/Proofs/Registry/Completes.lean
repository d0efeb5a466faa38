import RandomTables.Document.Decode
import RandomTables.Proofs.Definition.Errors
import RandomTables.Proofs.Registry.Loaded

/-!
# Loading all sources

A source that describes no definition is left out and adds a line to the errors, and the others are
loaded all the same. Two kinds of sources do more harm and end the loading: a document with an
option that has no name, and a text with a scalar that is not what its tag says.
-/
namespace RandomTables

/-! ## One source -/

namespace SourceText

theorem endsLoading_definition_iff {error : DefinitionError} :
    (SourceFault.definition error).endsLoading ↔ error = .unnamedOption := by
  cases error with
  | malformed path fault => simp [SourceFault.endsLoading]
  | numeral run => simp [SourceFault.endsLoading]
  | unnamedOption => simp [SourceFault.endsLoading]

theorem exists_grave_of_document_iff {path : Text} {raw : Document} :
    (∃ fault, (Definition.ofDocument path raw).mapError SourceFault.definition = .error fault ∧
      fault.endsLoading) ↔ raw.EndsReading path := by
  rw [← Definition.ofDocument_eq_unnamed_iff]
  constructor
  · rintro ⟨fault, hfault, hends⟩
    obtain ⟨error, herror, rfl⟩ := mapError_eq_error_iff.1 hfault
    obtain rfl := endsLoading_definition_iff.1 hends
    exact herror
  · intro h
    exact ⟨_, mapError_eq_error_iff.2 ⟨_, h, rfl⟩, rfl⟩

section
variable [Decoder]

/-- The source ends the loading: it is a text that cannot be decoded for a grave fault, or its
document ends the reading. -/
def EndsLoading (path : Text) : SourceText → Prop
  | text content suffix =>
    (∃ fault, Decoder.decode content suffix = .error fault ∧ fault.isGrave) ∨
      ∃ raw, Decoder.decode content suffix = .ok raw ∧ raw.EndsReading path
  | decoded raw => raw.EndsReading path

/-- A source has a fault that ends the loading exactly if it is one of the two kinds. -/
theorem exists_grave_iff {path : Text} {source : SourceText} :
    (∃ fault, source.define path = .error fault ∧ fault.endsLoading) ↔
      source.EndsLoading path := by
  cases source with
  | decoded raw => exact exists_grave_of_document_iff
  | text content suffix =>
    simp only [define, EndsLoading]
    cases hdecode : Decoder.decode content suffix with
    | error fault =>
      constructor
      · rintro ⟨_, hfault, hends⟩
        obtain rfl := Except.error.inj hfault
        exact .inl ⟨fault, rfl, hends⟩
      · rintro (⟨_, hfault, hgrave⟩ | ⟨raw, hraw, _⟩)
        · obtain rfl := Except.error.inj hfault
          exact ⟨_, rfl, hgrave⟩
        · cases hraw
    | ok raw =>
      refine exists_grave_of_document_iff.trans ?_
      constructor
      · intro hends
        exact .inr ⟨raw, rfl, hends⟩
      · rintro (⟨_, hfault, _⟩ | ⟨_, hraw, hends⟩)
        · cases hfault
        · obtain rfl := Except.ok.inj hraw
          exact hends

/-- The definition that a source describes stands under the path that was asked for. -/
theorem path_of_define {path : Text} {source : SourceText} {d : Definition}
    (h : source.define path = .ok d) : d.path = path := by
  obtain ⟨raw, hraw⟩ := ofDocument_of_define h
  exact (Definition.ofDocument_fits hraw).1

end

end SourceText

/-! ## All sources -/

namespace Registry

section
variable [Decoder]

/-- The definition that a source describes under the path of its entry. -/
def defined? (root : Text) (s : Text × SourceText) : Option Definition :=
  (s.2.define (Path.resolve s.1 "/" root)).toOption

/-- The last definition that sources describe under a path. -/
def newest? (root : Text) (sources : List (Text × SourceText)) (path : Text) : Option Definition :=
  ((sources.filterMap (defined? root)).filter fun d => decide (d.path = path)).getLast?

/-- The line for a source that describes no definition. -/
def refusal? (root : Text) (s : Text × SourceText) : Option Text :=
  match s.2.define (Path.resolve s.1 "/" root) with
  | .ok _ => none
  | .error fault => some (Path.resolve s.1 "/" root ++ ": " ++ fault.message)

section
variable {root entry : Text} {source : SourceText}

theorem defined?_of_ok {d : Definition}
    (h : source.define (Path.resolve entry "/" root) = .ok d) :
    defined? root (entry, source) = some d := by
  simp [defined?, h, Except.toOption]

theorem define_of_defined? {d : Definition} (h : defined? root (entry, source) = some d) :
    source.define (Path.resolve entry "/" root) = .ok d := by
  unfold defined? at h
  cases hdefine : source.define (Path.resolve entry "/" root) with
  | ok found =>
    rw [hdefine] at h
    exact congrArg Except.ok (Option.some.inj h)
  | error fault =>
    rw [hdefine] at h
    cases h

theorem refusal?_of_ok {d : Definition}
    (h : source.define (Path.resolve entry "/" root) = .ok d) :
    refusal? root (entry, source) = none := by
  simp [refusal?, h]

theorem defined?_of_error {fault : SourceFault}
    (h : source.define (Path.resolve entry "/" root) = .error fault) :
    defined? root (entry, source) = none := by
  simp [defined?, h, Except.toOption]

theorem refusal?_of_error {fault : SourceFault}
    (h : source.define (Path.resolve entry "/" root) = .error fault) :
    refusal? root (entry, source) =
      some (Path.resolve entry "/" root ++ ": " ++ fault.message) := by
  simp [refusal?, h]

end

/-- From one registry on, some sources were taken in or left out, and no other trace is left of them
than this. -/
structure Loads (r : Registry) (sources : List (Text × SourceText)) (r' : Registry) : Prop where
  root_eq : r'.root = r.root
  seen_eq : r'.seen = r.seen + sources.length
  loaded_eq : r'.loaded = r.loaded + (sources.filterMap (defined? r.root)).length
  errors_eq : r'.errors = r.errors ++ sources.filterMap (refusal? r.root)
  get?_eq : ∀ path, r'.get? path = (newest? r.root sources path).or (r.get? path)

theorem newest?_append (root : Text) (sources more : List (Text × SourceText)) (path : Text) :
    newest? root (sources ++ more) path =
      (newest? root more path).or (newest? root sources path) := by
  rw [newest?, newest?, newest?, List.filterMap_append, List.filter_append, List.getLast?_append]

namespace Loads
variable {r r' r'' : Registry} {sources more : List (Text × SourceText)}

theorem refl (r : Registry) : r.Loads [] r :=
  ⟨rfl, rfl, rfl, (List.append_nil _).symm, fun _ => rfl⟩

theorem trans (h : r.Loads sources r') (h' : r'.Loads more r'') :
    r.Loads (sources ++ more) r'' := by
  obtain ⟨hroot, hseen, hloaded, herrors, hget⟩ := h
  obtain ⟨hroot', hseen', hloaded', herrors', hget'⟩ := h'
  rw [hroot] at hloaded' herrors' hget'
  refine ⟨hroot'.trans hroot, ?_, ?_, ?_, ?_⟩
  · rw [hseen', hseen, List.length_append, Nat.add_assoc]
  · rw [hloaded', hloaded, List.filterMap_append, List.length_append, Nat.add_assoc]
  · rw [herrors', herrors, List.filterMap_append, List.append_assoc]
  · intro path
    rw [hget', hget, newest?_append, Option.or_assoc]

end Loads

/-- A source is taken in or left out unless it ends the loading. -/
theorem addSource_eq_ok_iff {r : Registry} {entry : Text} {source : SourceText} :
    (∃ r', r.addSource entry source = .ok r') ↔
      ¬ source.EndsLoading (Path.resolve entry "/" r.root) := by
  rw [← SourceText.exists_grave_iff]
  unfold addSource
  dsimp only
  cases hdefine : source.define (Path.resolve entry "/" r.root) with
  | ok d => simp
  | error fault => cases hends : fault.endsLoading <;> simp [hends]

theorem loads_of_addSource {r r' : Registry} {entry : Text} {source : SourceText}
    (h : r.addSource entry source = .ok r') : r.Loads [(entry, source)] r' := by
  unfold addSource at h
  dsimp only at h
  split at h
  · next d hdefine =>
    obtain rfl := Except.ok.inj h
    refine ⟨rfl, rfl, ?_, ?_, ?_⟩
    · rw [List.filterMap_cons_some (defined?_of_ok hdefine)]
      rfl
    · rw [List.filterMap_cons_none (refusal?_of_ok hdefine)]
      exact (List.append_nil _).symm
    · intro path
      rw [newest?, List.filterMap_cons_some (defined?_of_ok hdefine)]
      change (r.register d).get? path = _
      rw [get?_register]
      by_cases hpath : d.path = path <;> simp [hpath]
  · next fault hdefine =>
    split at h
    · cases h
    · obtain rfl := Except.ok.inj h
      refine ⟨rfl, rfl, ?_, ?_, ?_⟩
      · rw [List.filterMap_cons_none (defined?_of_error hdefine)]
        rfl
      · rw [List.filterMap_cons_some (refusal?_of_error hdefine)]
        rfl
      · intro path
        rw [newest?, List.filterMap_cons_none (defined?_of_error hdefine)]
        rfl

theorem loads_of_addSources {r r' : Registry} {sources : List (Text × SourceText)}
    (h : r.addSources sources = .ok r') : r.Loads sources r' := by
  induction sources generalizing r with
  | nil =>
    obtain rfl := Except.ok.inj h
    exact .refl r
  | cons first rest ih =>
    obtain ⟨entry, source⟩ := first
    rw [addSources] at h
    split at h
    · next next hnext => exact (loads_of_addSource hnext).trans (ih h)
    · cases h

theorem addSources_eq_ok_iff {r : Registry} {sources : List (Text × SourceText)} :
    (∃ r', r.addSources sources = .ok r') ↔ ∀ entry source, (entry, source) ∈ sources →
      ¬ source.EndsLoading (Path.resolve entry "/" r.root) := by
  induction sources generalizing r with
  | nil =>
    refine iff_of_true ⟨r, rfl⟩ ?_
    intro entry source hmem
    cases hmem
  | cons first rest ih =>
    obtain ⟨entry, source⟩ := first
    constructor
    · rintro ⟨r', h⟩ other otherSource hmem
      rw [addSources] at h
      split at h
      · next next hnext =>
        have hroot : next.root = r.root := (loads_of_addSource hnext).root_eq
        rcases List.mem_cons.1 hmem with hmem | hmem
        · obtain ⟨rfl, rfl⟩ := Prod.mk.inj hmem
          exact addSource_eq_ok_iff.1 ⟨next, hnext⟩
        · rw [← hroot]
          exact ih.1 ⟨r', h⟩ other otherSource hmem
      · cases h
    · intro h
      obtain ⟨next, hnext⟩ := addSource_eq_ok_iff.2 (h entry source (List.mem_cons_self ..))
      have hroot : next.root = r.root := (loads_of_addSource hnext).root_eq
      have hrest : ∃ r', next.addSources rest = .ok r' := by
        refine ih.2 ?_
        rw [hroot]
        exact fun other otherSource hmem => h other otherSource (List.mem_cons_of_mem _ hmem)
      obtain ⟨r', hr'⟩ := hrest
      exact ⟨r', by rw [addSources, hnext]; exact hr'⟩

/-- Sources whose documents have strings for keys are all loaded. -/
theorem ofSources_of_hasTextKeys {root : Text} {sources : List (Text × SourceText)}
    (h : ∀ entry source, (entry, source) ∈ sources → ∃ raw : Document, raw.HasTextKeys ∧
      (source = .decoded raw ∨ ∃ content suffix, source = .text content suffix ∧
        Decoder.decode content suffix = .ok raw)) : ∃ r, ofSources root sources = .ok r := by
  refine addSources_eq_ok_iff.2 ?_
  intro entry source hmem hends
  obtain ⟨raw, hkeys, rfl | ⟨content, suffix, rfl, hdecode⟩⟩ := h entry source hmem
  · exact hkeys.not_endsReading _ hends
  · rcases hends with ⟨fault, hfault, _⟩ | ⟨other, hother, hends⟩
    · cases hdecode.symm.trans hfault
    · obtain rfl := Except.ok.inj (hdecode.symm.trans hother)
      exact hkeys.not_endsReading _ hends

/-- Every source describes a definition or adds a line. -/
theorem length_defined_add_length_refused (root : Text) (sources : List (Text × SourceText)) :
    (sources.filterMap (defined? root)).length + (sources.filterMap (refusal? root)).length =
      sources.length := by
  induction sources with
  | nil => rfl
  | cons first rest ih =>
    obtain ⟨entry, source⟩ := first
    cases hdefine : source.define (Path.resolve entry "/" root) with
    | ok d =>
      rw [List.filterMap_cons_some (defined?_of_ok hdefine),
        List.filterMap_cons_none (refusal?_of_ok hdefine), List.length_cons, List.length_cons]
      omega
    | error fault =>
      rw [List.filterMap_cons_none (defined?_of_error hdefine),
        List.filterMap_cons_some (refusal?_of_error hdefine), List.length_cons, List.length_cons]
      omega

/-- Sources are loaded to the end exactly if none of them ends the loading. Each source is counted
then, and has either contributed the definition it describes, under its own path, or one line to the
errors; under every path stands the last definition that was described for it, whatever the sources
that describe none. -/
theorem ofSources_completes_iff (root : Text) (sources : List (Text × SourceText)) :
    ((∃ r, ofSources root sources = .ok r) ↔ ∀ entry source, (entry, source) ∈ sources →
      ¬ source.EndsLoading (Path.resolve entry "/" root)) ∧
    ∀ r, ofSources root sources = .ok r →
      r.root = root ∧ r.seen = sources.length ∧ r.loaded + r.errors.length = sources.length ∧
      r.loaded = (sources.filterMap (defined? root)).length ∧
      r.errors = sources.filterMap (refusal? root) ∧
      (∀ entry source, (entry, source) ∈ sources →
        (∃ d, source.define (Path.resolve entry "/" root) = .ok d ∧
          d.path = Path.resolve entry "/" root ∧ d ∈ sources.filterMap (defined? root)) ∨
        ∃ fault, source.define (Path.resolve entry "/" root) = .error fault ∧
          Path.resolve entry "/" root ++ ": " ++ fault.message ∈ r.errors) ∧
      ∀ path, r.get? path = newest? root sources path := by
  refine ⟨addSources_eq_ok_iff, ?_⟩
  intro r h
  obtain ⟨hroot, hseen, hloaded, herrors, hget⟩ := loads_of_addSources h
  have hseen : r.seen = sources.length := hseen.trans (Nat.zero_add _)
  have hloaded : r.loaded = (sources.filterMap (defined? root)).length :=
    hloaded.trans (Nat.zero_add _)
  have herrors : r.errors = sources.filterMap (refusal? root) := herrors
  refine ⟨hroot, hseen, ?_, hloaded, herrors, ?_, ?_⟩
  · rw [hloaded, herrors]
    exact length_defined_add_length_refused root sources
  · intro entry source hmem
    cases hdefine : source.define (Path.resolve entry "/" root) with
    | ok d =>
      refine .inl ⟨d, rfl, SourceText.path_of_define hdefine, ?_⟩
      exact List.mem_filterMap.2 ⟨_, hmem, defined?_of_ok hdefine⟩
    | error fault =>
      refine .inr ⟨fault, rfl, ?_⟩
      rw [herrors]
      exact List.mem_filterMap.2 ⟨_, hmem, refusal?_of_error hdefine⟩
  · intro path
    exact (hget path).trans (Option.or_none ..)

end

/-- A source whose rows are a number is left out, and the source after it is loaded. -/
theorem ofSources_numberForRows :
    ∃ r, ofSources "/" [("/bad", .decoded (.record [("rows", .int 5)])),
        ("/good", .decoded (.record [("rows", .list [.text "x"])]))] = .ok r ∧
      r.seen = 2 ∧ r.loaded + r.errors.length = 2 ∧
      r.errors = [("/bad: /bad: rows must be text or a list" : Text)] ∧
      ∃ d ∈ r.get? "/good", d.path = "/good" := by
  have hload : ofSources "/" [("/bad", .decoded (.record [("rows", .int 5)])),
      ("/good", .decoded (.record [("rows", .list [.text "x"])]))] =
        .ok ⟨"/", [.table ⟨"/good", "good", .dice 1 1 false, [⟨[.plain "x"], .single 1, "x"⟩],
          .empty, none⟩], 2, 1, ["/bad: /bad: rows must be text or a list"]⟩ := by
    with_unfolding_all rfl
  obtain ⟨_, hseen, hsum, _, _, _, _⟩ := (ofSources_completes_iff "/" _).2 _ hload
  exact ⟨_, hload, hseen, hsum, rfl, _, rfl, rfl⟩

/-- A reference with a number among its keys ends the loading, though the source after it is in
order. -/
theorem ofSources_numberForOption :
    ofSources "/" [("/bad", .decoded (.record [("bundle",
        .list [.map [(.text "path", .text "/x"), (.int 1, .text "y")]])])),
      ("/good", .decoded (.record [("rows", .list [.text "x"])]))] =
        .error (.definition .unnamedOption) := by
  with_unfolding_all rfl

end Registry
end RandomTables
