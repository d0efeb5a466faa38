import RandomTables.Proofs.Definition.Sides
import RandomTables.Registry

/-!
# Loaded registries

A registry that is filled from sources holds nothing but what the sources describe: each definition
was made from one of them, and stands under the path that the entry of the source resolves to.
-/
namespace RandomTables

variable [Decoder]

theorem SourceText.ofDocument_of_define {path : Text} {source : SourceText} {d : Definition}
    (h : source.define path = .ok d) : ∃ raw, Definition.ofDocument path raw = .ok d := by
  have hmapped : ∀ raw : Document,
      (Definition.ofDocument path raw).mapError SourceFault.definition = .ok d →
        ∃ raw, Definition.ofDocument path raw = .ok d := by
    intro raw h
    exact ⟨raw, mapError_eq_ok_iff.1 h⟩
  cases source with
  | decoded value => exact hmapped value h
  | text content suffix =>
    simp only [define] at h
    split at h
    · cases h
    · next value _ => exact hmapped value h

namespace Registry

/-- The registry holds only definitions that come from sources of a list, under the paths that the
entries of these resolve to. -/
def ComesFrom (r : Registry) (sources : List (Text × SourceText)) : Prop :=
  ∀ path d, r.get? path = some d → ∃ entry source, (entry, source) ∈ sources ∧
    path = Path.resolve entry "/" r.root ∧ source.define path = .ok d

theorem addSource_comesFrom {r r' : Registry} {entry : Text} {source : SourceText}
    {sources : List (Text × SourceText)} (hr : r.ComesFrom sources)
    (h : r.addSource entry source = .ok r') :
    r'.root = r.root ∧ r'.ComesFrom (sources ++ [(entry, source)]) := by
  have hkept : ∀ path d, r.get? path = some d →
      ∃ entry' source', (entry', source') ∈ sources ++ [(entry, source)] ∧
        path = Path.resolve entry' "/" r.root ∧ source'.define path = .ok d := by
    intro path d hget
    obtain ⟨entry', source', hmem, hpath, hdefine⟩ := hr path d hget
    exact ⟨entry', source', List.mem_append_left _ hmem, hpath, hdefine⟩
  unfold addSource at h
  dsimp only at h
  split at h
  · next found hfound =>
    obtain rfl := Except.ok.inj h
    refine ⟨rfl, ?_⟩
    intro path d hget
    have hget : (r.register found).get? path = some d := hget
    rw [get?_register] at hget
    split at hget
    · next hpath =>
      obtain rfl := Option.some.inj hget
      obtain ⟨raw, hraw⟩ := SourceText.ofDocument_of_define hfound
      have hown := (Definition.ofDocument_fits hraw).1
      refine ⟨entry, source, by simp, hpath.symm.trans hown, ?_⟩
      rw [← hpath, hown]
      exact hfound
    · exact hkept path d hget
  · split at h
    · cases h
    · obtain rfl := Except.ok.inj h
      exact ⟨rfl, hkept⟩

theorem addSources_comesFrom {r r' : Registry} {taken sources : List (Text × SourceText)}
    (hr : r.ComesFrom taken) (h : r.addSources sources = .ok r') :
    r'.root = r.root ∧ r'.ComesFrom (taken ++ sources) := by
  induction sources generalizing r taken with
  | nil =>
    obtain rfl := Except.ok.inj h
    rw [List.append_nil]
    exact ⟨rfl, hr⟩
  | cons first rest ih =>
    obtain ⟨entry, source⟩ := first
    unfold addSources at h
    split at h
    · next next hnext =>
      obtain ⟨hroot, hfrom⟩ := addSource_comesFrom hr hnext
      obtain ⟨hroot', hfrom'⟩ := ih hfrom h
      refine ⟨hroot'.trans hroot, ?_⟩
      rw [List.append_assoc] at hfrom'
      exact hfrom'
    · cases h

/-- A registry of sources has the root that it was given and holds what its sources describe. -/
theorem ofSources_comesFrom {root : Text} {sources : List (Text × SourceText)} {r : Registry}
    (h : ofSources root sources = .ok r) : r.root = root ∧ r.ComesFrom sources := by
  have hempty : (empty root).ComesFrom [] := by
    intro path d hget
    cases hget
  exact addSources_comesFrom hempty h

/-- What is said of definitions that were read from documents holds of loaded ones. -/
theorem ComesFrom.exists_ofDocument {r : Registry} {sources : List (Text × SourceText)}
    (hr : r.ComesFrom sources) {path : Text} {d : Definition} (h : r.get? path = some d) :
    ∃ raw, Definition.ofDocument path raw = .ok d := by
  obtain ⟨entry, source, _, _, hdefine⟩ := hr path d h
  exact SourceText.ofDocument_of_define hdefine

end Registry
end RandomTables
