import Mathlib.Data.List.Induction
import Mathlib.Data.List.Nodup
import RandomTables.Proofs.Registry.Completes

/-!
# What a registry of sources holds

A definition goes to the place of the one that has its path, and to the end if there is none. So the
paths of a registry differ, they stand in the order in which they first came up, and each of them
leads to the last definition that was registered for it. For a registry that was made from sources
this tells its contents, whatever definitions and malformed sources were mixed, and malformed
sources can be deleted without changing any of it.
-/
namespace RandomTables.Registry

variable {r r' : Registry} {root path : Text} {sources kept : List (Text × SourceText)}
  {d : Definition} {ds : List Definition}

/-! ## Registering definitions -/

def placeAll (held ds : List Definition) : List Definition :=
  ds.foldl (fun held d => place d held) held

theorem definitions_foldl_register (r : Registry) (ds : List Definition) :
    (ds.foldl register r).definitions = placeAll r.definitions ds := by
  induction ds generalizing r with
  | nil => rfl
  | cons d ds ih => exact ih (r.register d)

/-- A new path comes last, and one that is there stays where it is. -/
theorem paths_place (d : Definition) (ds : List Definition) :
    (place d ds).map Definition.path =
      if d.path ∈ ds.map Definition.path then ds.map Definition.path
      else ds.map Definition.path ++ [d.path] := by
  induction ds with
  | nil => simp [place]
  | cons old rest ih =>
    rw [place]
    by_cases hold : old.path = d.path
    · simp [hold]
    · rw [if_neg hold, List.map_cons, ih]
      by_cases hrest : d.path ∈ rest.map Definition.path
      · simp [hrest]
      · simp [hrest, Ne.symm hold]

theorem nodup_place (h : (ds.map Definition.path).Nodup) (d : Definition) :
    ((place d ds).map Definition.path).Nodup := by
  rw [paths_place]
  split
  · exact h
  · next hnew => exact List.nodup_append.2 ⟨h, List.nodup_singleton _, by simpa using hnew⟩

theorem eraseDups_concat (l : List Text) (t : Text) :
    (l ++ [t]).eraseDups = if t ∈ l then l.eraseDups else l.eraseDups ++ [t] := by
  rw [List.eraseDups_append]
  by_cases h : t ∈ l <;> simp [List.removeAll, List.eraseDups_cons, h]

/-- The paths of definitions stand in the order in which they first came up. -/
theorem paths_placeAll_nil (ds : List Definition) :
    (placeAll [] ds).map Definition.path = (ds.map Definition.path).eraseDups := by
  induction ds using List.reverseRecOn with
  | nil => rfl
  | append_singleton ds d ih =>
    rw [placeAll, List.foldl_concat]
    change (place d (placeAll [] ds)).map Definition.path = _
    rw [paths_place, ih, List.map_append, List.map_singleton, eraseDups_concat]
    simp only [List.mem_eraseDups]

/-- Registering definitions keeps the paths of a registry apart, changes nothing but what is held,
and under every path stands the last definition that was registered for it. -/
structure Registers (r : Registry) (ds : List Definition) (r' : Registry) : Prop where
  root_eq : r'.root = r.root
  seen_eq : r'.seen = r.seen
  loaded_eq : r'.loaded = r.loaded
  errors_eq : r'.errors = r.errors
  nodup : r.paths.Nodup → r'.paths.Nodup
  get?_eq : ∀ path, r'.get? path =
    (ds.filter fun d => decide (d.path = path)).getLast?.or (r.get? path)

theorem registers_foldl (r : Registry) (ds : List Definition) :
    r.Registers ds (ds.foldl register r) := by
  induction ds generalizing r with
  | nil => exact ⟨rfl, rfl, rfl, rfl, id, fun _ => rfl⟩
  | cons d ds ih =>
    obtain ⟨hroot, hseen, hloaded, herrors, hnodup, hget⟩ := ih (r.register d)
    refine ⟨hroot, hseen, hloaded, herrors, fun h => hnodup (nodup_place h d), fun path => ?_⟩
    refine (hget path).trans ?_
    rw [get?_register, ← List.singleton_append, List.filter_append, List.getLast?_append,
      Option.or_assoc]
    by_cases hpath : d.path = path <;> simp [hpath]

/-- Where paths differ, each of them leads to the definition that has it. -/
theorem get?_path (h : r.paths.Nodup) (hmem : d ∈ r.definitions) : r.get? d.path = some d := by
  have hfind : ∀ ds : List Definition, (ds.map Definition.path).Nodup → d ∈ ds →
      ds.find? (fun e => decide (e.path = d.path)) = some d := by
    intro ds hnodup hmem
    induction ds with
    | nil => cases hmem
    | cons first rest ih =>
      obtain ⟨hfirst, hrest⟩ := List.nodup_cons.1 hnodup
      obtain rfl | hmem := List.mem_cons.1 hmem
      · exact List.find?_cons_of_pos (decide_eq_true rfl)
      · have hne : first.path ≠ d.path := fun heq =>
          hfirst (heq ▸ List.mem_map_of_mem hmem)
        rw [List.find?_cons_of_neg (by simpa using hne)]
        exact ih hrest hmem
  exact hfind r.definitions h hmem

theorem mem_paths_iff : path ∈ r.paths ↔ ∃ d, r.get? path = some d ∧ d.path = path := by
  constructor
  · intro hmem
    obtain ⟨d, hd, hpath⟩ := List.mem_map.1 hmem
    have hsome : (r.get? path).isSome :=
      List.find?_isSome.2 ⟨d, hd, decide_eq_true hpath⟩
    obtain ⟨found, hfound⟩ := Option.isSome_iff_exists.1 hsome
    exact ⟨found, hfound, path_of_get?_eq_some hfound⟩
  · rintro ⟨d, hget, rfl⟩
    exact List.mem_map_of_mem (List.mem_of_find?_eq_some hget)

/-! ## Sources -/

section
variable [Decoder]

/-- The source describes a definition under the path of its entry. -/
def isWellFormed (root : Text) (s : Text × SourceText) : Bool := (defined? root s).isSome

/-- Some sources that describe no definition are deleted from a list. -/
inductive Pruned (root : Text) :
    List (Text × SourceText) → List (Text × SourceText) → Prop
  | nil : Pruned root [] []
  | keep (s : Text × SourceText) {kept sources : List (Text × SourceText)}
    (h : Pruned root kept sources) : Pruned root (s :: kept) (s :: sources)
  | delete {s : Text × SourceText} (hs : isWellFormed root s = false)
    {kept sources : List (Text × SourceText)} (h : Pruned root kept sources) :
    Pruned root kept (s :: sources)

namespace Pruned

theorem sublist (h : Pruned root kept sources) : kept.Sublist sources := by
  induction h with
  | nil => exact .refl _
  | keep s _ ih => exact ih.cons_cons s
  | delete _ _ ih => exact ih.cons _

theorem filterMap_eq (h : Pruned root kept sources) :
    kept.filterMap (defined? root) = sources.filterMap (defined? root) := by
  induction h with
  | nil => rfl
  | keep s _ ih => rw [List.filterMap_cons, List.filterMap_cons, ih]
  | delete hs _ ih =>
    have hnone := Option.isNone_iff_eq_none.1 (Option.isSome_eq_false_iff.1 hs)
    rw [List.filterMap_cons_none hnone, ih]

end Pruned

/-- Loading sources registers the definitions that they describe. -/
theorem definitions_of_addSources (h : r.addSources sources = .ok r') :
    r'.definitions = placeAll r.definitions (sources.filterMap (defined? r.root)) := by
  induction sources generalizing r with
  | nil =>
    obtain rfl := Except.ok.inj h
    rfl
  | cons first rest ih =>
    obtain ⟨entry, source⟩ := first
    rw [addSources] at h
    split at h
    · next next hnext =>
      have hroot := (loads_of_addSource hnext).root_eq
      rw [ih h, hroot]
      unfold addSource at hnext
      dsimp only at hnext
      split at hnext
      · next d hdefine =>
        obtain rfl := Except.ok.inj hnext
        rw [List.filterMap_cons_some (defined?_of_ok hdefine)]
        rfl
      · next fault hdefine =>
        split at hnext
        · cases hnext
        · obtain rfl := Except.ok.inj hnext
          rw [List.filterMap_cons_none (defined?_of_error hdefine)]
          rfl
    · cases h

theorem newest?_eq_none_iff : newest? root sources path = none ↔
    ∀ s ∈ sources, Path.resolve s.1 "/" root = path →
      ∃ fault, s.2.define path = .error fault := by
  rw [newest?, List.getLast?_eq_none_iff, List.filter_eq_nil_iff]
  constructor
  · rintro h ⟨entry, source⟩ hmem rfl
    cases hdefine : source.define (Path.resolve entry "/" root) with
    | error fault => exact ⟨fault, rfl⟩
    | ok d =>
      have hd := List.mem_filterMap.2 ⟨_, hmem, defined?_of_ok hdefine⟩
      exact absurd (decide_eq_true (SourceText.path_of_define hdefine)) (h d hd)
  · rintro h d hd hpath
    obtain ⟨⟨entry, source⟩, hmem, hdefined⟩ := List.mem_filterMap.1 hd
    have hdefine := define_of_defined? hdefined
    have hresolve := (SourceText.path_of_define hdefine).symm.trans (of_decide_eq_true hpath)
    obtain ⟨fault, hfault⟩ := h _ hmem hresolve
    rw [← hresolve, hdefine] at hfault
    cases hfault

theorem newest?_singleton_eq_some_iff {entry : Text} {source : SourceText} :
    newest? root [(entry, source)] path = some d ↔
      Path.resolve entry "/" root = path ∧ source.define path = .ok d := by
  rw [newest?]
  cases hdefine : source.define (Path.resolve entry "/" root) with
  | error fault =>
    rw [List.filterMap_cons_none (defined?_of_error hdefine)]
    refine iff_of_false (by simp) ?_
    rintro ⟨rfl, hd⟩
    cases hdefine.symm.trans hd
  | ok found =>
    have hpath := SourceText.path_of_define hdefine
    rw [List.filterMap_cons_some (defined?_of_ok hdefine), List.filterMap_nil,
      List.filter_singleton, hpath]
    by_cases hresolve : Path.resolve entry "/" root = path
    · subst hresolve
      simp [hdefine]
    · simp [hresolve]

/-- The last definition under a path is that of the last source for it that describes one. -/
theorem newest?_eq_some_iff : newest? root sources path = some d ↔
    ∃ before entry source after, sources = before ++ (entry, source) :: after ∧
      Path.resolve entry "/" root = path ∧ source.define path = .ok d ∧
      ∀ s ∈ after, Path.resolve s.1 "/" root = path → ∃ fault, s.2.define path = .error fault := by
  constructor
  · intro h
    induction sources with
    | nil => cases h
    | cons first rest ih =>
      rw [← List.singleton_append, newest?_append] at h
      cases hrest : newest? root rest path with
      | some found =>
        rw [hrest, Option.some_or, ← hrest] at h
        obtain ⟨before, entry, source, after, rfl, hfound⟩ := ih h
        exact ⟨first :: before, entry, source, after, rfl, hfound⟩
      | none =>
        rw [hrest, Option.none_or] at h
        obtain ⟨hresolve, hdefine⟩ := newest?_singleton_eq_some_iff.1 h
        exact ⟨[], first.1, first.2, rest, rfl, hresolve, hdefine, newest?_eq_none_iff.1 hrest⟩
  · rintro ⟨before, entry, source, after, rfl, hresolve, hdefine, hafter⟩
    rw [newest?_append, ← List.singleton_append, newest?_append, newest?_eq_none_iff.2 hafter,
      newest?_singleton_eq_some_iff.2 ⟨hresolve, hdefine⟩]
    rfl

/-- The definitions that sources describe stand under the paths of their entries. -/
theorem map_path_filterMap_defined? (root : Text) (sources : List (Text × SourceText)) :
    (sources.filterMap (defined? root)).map Definition.path =
      (sources.filter (isWellFormed root)).map fun s => Path.resolve s.1 "/" root := by
  induction sources with
  | nil => rfl
  | cons s rest ih =>
    obtain ⟨entry, source⟩ := s
    cases hdefined : defined? root (entry, source) with
    | none =>
      have hbad : ¬ isWellFormed root (entry, source) = true := by simp [isWellFormed, hdefined]
      rw [List.filterMap_cons_none hdefined, List.filter_cons_of_neg hbad, ih]
    | some d =>
      have hgood : isWellFormed root (entry, source) = true := by simp [isWellFormed, hdefined]
      have hpath := SourceText.path_of_define (define_of_defined? hdefined)
      rw [List.filterMap_cons_some hdefined, List.filter_cons_of_pos hgood, List.map_cons,
        List.map_cons, ih, hpath]

/-- Whatever sources a registry was made from, its contents and counts are exact. Under every path
stands the definition of the last source for it that describes one, and nothing else; the paths
stand in the order of the first such source for each, and each definition is found under its own
path. All sources are counted, those that describe a definition are counted as loaded, and each of
the others has a line in the errors. Malformed sources can be deleted without changing the
definitions or their order, and definitions that are registered later change neither the counts nor
that each path leads to a definition with this path. -/
theorem ofSources_contents (h : ofSources root sources = .ok r) :
    (∀ path d, r.get? path = some d ↔ ∃ before entry source after,
        sources = before ++ (entry, source) :: after ∧ Path.resolve entry "/" root = path ∧
        source.define path = .ok d ∧ ∀ s ∈ after, Path.resolve s.1 "/" root = path →
          ∃ fault, s.2.define path = .error fault) ∧
      (∀ path, path ∈ r.paths ↔ ∃ d, r.get? path = some d ∧ d.path = path) ∧
      r.paths = ((sources.filter (isWellFormed root)).map
        fun s => Path.resolve s.1 "/" root).eraseDups ∧
      r.paths.Nodup ∧
      (∀ d ∈ r.definitions, r.get? d.path = some d) ∧
      r.seen = sources.length ∧
      r.loaded = (sources.filter (isWellFormed root)).length ∧
      r.errors = sources.filterMap (refusal? root) ∧
      (∀ kept, Pruned root kept sources →
        ∃ r', ofSources root kept = .ok r' ∧ r'.definitions = r.definitions) ∧
      ∀ ds, r.Registers ds (ds.foldl register r) ∧ (ds.foldl register r).paths.Nodup ∧
        ∀ path, path ∈ (ds.foldl register r).paths ↔
          ∃ d, (ds.foldl register r).get? path = some d ∧ d.path = path := by
  obtain ⟨hroot, hseen, hloaded, herrors, hget⟩ := loads_of_addSources h
  have hdefinitions : r.definitions = placeAll [] (sources.filterMap (defined? root)) :=
    definitions_of_addSources h
  have hnodup : r.paths.Nodup := by
    have hempty : (empty root).paths.Nodup := List.nodup_nil
    have hregistered := (registers_foldl (empty root) (sources.filterMap (defined? root))).nodup
      hempty
    rw [paths, definitions_foldl_register] at hregistered
    rw [paths, hdefinitions]
    exact hregistered
  refine ⟨fun path d => ?_, fun path => mem_paths_iff, ?_, hnodup, fun d => get?_path hnodup, ?_,
    ?_, herrors, ?_, ?_⟩
  · rw [hget, ← newest?_eq_some_iff]
    exact iff_of_eq (congrArg (· = some d) (Option.or_none ..))
  · rw [paths, hdefinitions, paths_placeAll_nil, map_path_filterMap_defined?]
  · exact hseen.trans (Nat.zero_add _)
  · have hlength := congrArg List.length (map_path_filterMap_defined? root sources)
    rw [List.length_map, List.length_map] at hlength
    exact (hloaded.trans (Nat.zero_add _)).trans hlength
  · intro kept hpruned
    obtain ⟨r', hr'⟩ : ∃ r', ofSources root kept = .ok r' :=
      addSources_eq_ok_iff.2 fun entry source hmem =>
        addSources_eq_ok_iff.1 ⟨r, h⟩ entry source (hpruned.sublist.subset hmem)
    refine ⟨r', hr', ?_⟩
    rw [definitions_of_addSources hr', hdefinitions]
    exact congrArg (placeAll []) hpruned.filterMap_eq
  · intro ds
    have hregisters := registers_foldl r ds
    exact ⟨hregisters, hregisters.nodup hnodup, fun path => mem_paths_iff⟩

end

/-- Three sources for one path, of which the second one is malformed, after a source for another
path. -/
def mixedGems : List (Text × SourceText) :=
  [("/ore", .decoded (.record [("rows", .list [.text "iron"])])),
    ("/gem", .decoded (.record [("rows", .list [.text "ruby"])])),
    ("gem", .decoded (.record [("rows", .int 5)])),
    ("/gem/.", .decoded (.record [("rows", .list [.text "opal"])]))]

/-- The last table of gems is found under their path, which stays in second place, with the
malformed source and without it. -/
theorem mixedGems_contents :
    ∃ r, ofSources "/" mixedGems = .ok r ∧ r.paths = ["/ore", "/gem"] ∧
      r.get? "/gem" = some (.table ⟨"/gem", "gem", .dice 1 1 false,
        [⟨[.plain "opal"], .single 1, "opal"⟩], .empty, none⟩) ∧
      r.seen = 4 ∧ r.loaded = 3 ∧
      r.errors = [("/gem: /gem: rows must be text or a list" : Text)] ∧
      ∃ r', ofSources "/" (mixedGems.eraseIdx 2) = .ok r' ∧ r'.definitions = r.definitions := by
  have hkeys : ∀ s ∈ mixedGems, ∃ raw : Document, raw.HasTextKeys ∧ s.2 = .decoded raw := by
    have hlist : ∀ s : Text, (Document.list [.text s]).HasTextKeys := fun s =>
      .list (List.forall_mem_singleton.2 (.scalar _))
    have hrows : ∀ rows : Document, rows.HasTextKeys →
        ∃ raw : Document, raw.HasTextKeys ∧
          SourceText.decoded (.record [("rows", rows)]) = .decoded raw := fun rows h =>
      ⟨_, .record (List.forall_mem_singleton.2 h), rfl⟩
    simp only [mixedGems, List.forall_mem_cons]
    exact ⟨hrows _ (hlist _), hrows _ (hlist _), hrows _ (.scalar _), hrows _ (hlist _), nofun⟩
  obtain ⟨r, hload⟩ : ∃ r, ofSources "/" mixedGems = .ok r := by
    refine ofSources_of_hasTextKeys fun entry source hmem => ?_
    obtain ⟨raw, hraw, hsource⟩ := hkeys _ hmem
    exact ⟨raw, hraw, .inl hsource⟩
  obtain ⟨hget, _, hpaths, _, _, hseen, hloaded, herrors, hpruned, _⟩ := ofSources_contents hload
  refine ⟨r, hload, ?_, ?_, hseen, ?_, ?_, hpruned _ ?_⟩
  · rw [hpaths]
    with_unfolding_all rfl
  · refine (hget _ _).2 ⟨mixedGems.take 3, "/gem/.", _, [], rfl, ?_, ?_, List.forall_mem_nil _⟩
    · with_unfolding_all rfl
    · with_unfolding_all rfl
  · rw [hloaded]
    with_unfolding_all rfl
  · rw [herrors]
    with_unfolding_all rfl
  · have hbad : isWellFormed "/" ("gem", .decoded (.record [("rows", .int 5)])) = false := by
      with_unfolding_all rfl
    exact .keep _ (.keep _ (.delete hbad (.keep _ .nil)))

end RandomTables.Registry
