import RandomTables.Proofs.Path.Resolved

/-!
# Staying below the root

A path that is resolved from a table further down than the root stays below the root however far it
goes up: the directory of such a table is still in the root, so the root is split off before the
path is walked along. From the root itself or from the top, a path that starts with a point is
joined to a directory outside, and then nothing keeps it from ending elsewhere
(`resolve_liesIn_iff`).
-/
namespace RandomTables.Path

/-- The path is the root or lies below it. -/
def LiesIn (root s : Text) : Prop := s = root ∨ (dropEnd root ++ "/" : Text) <+: s

instance (root s : Text) : Decidable (LiesIn root s) := inferInstanceAs (Decidable (_ ∨ _))

variable {root s w directory : Text} {init segs : List Segment}

/-- An absolute path has a last part, which is empty only if the path is a slash alone. -/
theorem exists_last_part (h : IsAbsolute s) :
    ∃ init w, (∀ segment ∈ init, IsSolid segment) ∧ .char '/' ∉ w ∧
      s = spelled init ++ .char '/' :: w := by
  obtain ⟨names, hnames, rfl⟩ := h
  have hsolid := solid_of_names hnames
  rcases List.eq_nil_or_concat names with rfl | ⟨init, last, rfl⟩
  · exact ⟨[], [], by simp, by simp, rfl⟩
  · rw [List.concat_eq_append] at hsolid ⊢
    have hlast := (hsolid last (by simp)).noSlash
    refine ⟨init, last, fun segment hmem => hsolid segment (by simp [hmem]), hlast, ?_⟩
    simp [absolute]

theorem segments_last_part (hinit : ∀ segment ∈ init, IsSolid segment) (w : Text) :
    segments (spelled init ++ .char '/' :: w) = init ++ segments w := by
  rw [segments_append_slash, segments_spelled hinit]

/-- A path that starts with a slash and has no two of them in a row says itself that it lies below
the root if its segments start with those of the root. -/
theorem isBelow_last_part (h : IsAbsolute root) (hinit : ∀ segment ∈ init, IsSolid segment)
    (hw : .char '/' ∉ w) :
    isBelow (dropEnd root) (spelled init ++ .char '/' :: w) ↔
      segments root ≠ [] ∧ segments root <+: init ++ segments w := by
  have hroot := solid_of_names (name_of_mem_segments h)
  rw [dropEnd_root h]
  by_cases hnil : w = []
  · have hslash : ∀ c ∈ ([.char '/'] : Text).head?, c = .char '/' := by simp
    have hspelled := isBelow_spelled_iff hroot hinit hslash rfl
    simpa [hnil] using hspelled
  · have hsolid : IsSolid w := ⟨hnil, hw⟩
    have hsegs : ∀ segment ∈ init ++ [w], IsSolid segment := by
      intro segment hmem
      rcases List.mem_append.1 hmem with hold | hlast
      · exact hinit segment hold
      · exact List.mem_singleton.1 hlast ▸ hsolid
    have hnone : ∀ c ∈ ([] : Text).head?, c = .char '/' := by simp
    have hspelled := isBelow_spelled_iff hroot hsegs hnone rfl
    simpa [segments_of_solid hsolid] using hspelled

/-- One path lies in another if its segments continue those of the other. -/
theorem liesIn_iff (hroot : IsAbsolute root) (hs : IsAbsolute s) :
    LiesIn root s ↔ segments root <+: segments s := by
  by_cases hslash : root = "/"
  · subst hslash
    obtain ⟨t, rfl⟩ := hs.exists_cons
    have hbelow : LiesIn "/" (.char '/' :: t) := .inr ⟨t, rfl⟩
    exact iff_of_true hbelow (List.nil_prefix)
  · have hne : segments root ≠ [] := mt (segments_eq_nil_iff hroot).1 hslash
    obtain ⟨init, w, hinit, hw, hlast⟩ := exists_last_part hs
    have hbelow := isBelow_last_part hroot hinit hw
    rw [← segments_last_part hinit, ← hlast, isBelow_dropEnd_iff hroot] at hbelow
    rw [LiesIn, dropEnd_of_ne_slash hroot hslash]
    simpa [hslash, hne] using hbelow

/-- Where segments lead lies in the root if they start with it, or happen to get there from the
top. -/
theorem prefix_reached_iff :
    segments root <+: reached root segs ↔
      segments root <+: segs ∨ segments root <+: walk segs := by
  unfold reached
  split
  · next hfront => exact iff_of_true (List.prefix_append ..) (.inl hfront)
  · next hfront => simp [hfront]

theorem prefix_asked_of_not_point {raw : Text} (h : ¬ ("." : Text) <+: raw) :
    segments root <+: asked raw directory root := by
  simp only [asked, if_neg h]
  split
  · exact List.prefix_append ..
  · split
    · next hbelow =>
      obtain ⟨_, rfl | ⟨t, rfl⟩⟩ := hbelow
      · exact List.prefix_refl _
      · rw [List.append_assoc]
        change segments root <+: segments (root ++ .char '/' :: t)
        rw [segments_append_slash]
        exact List.prefix_append ..
    · exact List.prefix_append ..

/-- What starts with some names and goes on still starts with them without its last one. -/
theorem prefix_dropLast_of_ne {names more : List Segment} (h : names <+: more) (hne : more ≠ names) :
    names <+: more.dropLast := by
  rcases List.eq_nil_or_concat more with rfl | ⟨init, last, rfl⟩
  · exact h
  · rw [List.concat_eq_append] at h hne ⊢
    rw [List.dropLast_concat]
    exact (List.prefix_concat_iff.1 h).resolve_left hne.symm

theorem prefix_asked_of_below (hroot : IsAbsolute root) (hdirectory : IsAbsolute directory)
    (hlies : LiesIn root directory) (hne : directory ≠ root) (raw : Text) :
    segments root <+: asked raw directory root := by
  by_cases hpoint : ("." : Text) <+: raw
  · have hdollar : ¬ (raw = "$" ∨ ("$/" : Text) <+: raw) := by
      obtain ⟨t, rfl⟩ := hpoint
      rintro (hone | ⟨u, htwo⟩)
      · cases hone
      · cases htwo
    have hsegs : segments directory ≠ segments root := mt (hdirectory.eq_iff hroot).2 hne
    rw [asked, if_neg hdollar, if_pos hpoint]
    exact (prefix_dropLast_of_ne ((liesIn_iff hroot hdirectory).1 hlies) hsegs).trans
      (List.prefix_append ..)
  · exact prefix_asked_of_not_point hpoint

/-- A path that is resolved from the top or from a table in the root lies in the root, but for one
case. A path that starts with a point is joined to the directory that holds the table, and for the
top and for the root itself that directory lies outside the root. What such a path asks for lies in
the root only if it starts with the root's segments, or if the walk along it happens to lead there
from the top. -/
theorem resolve_liesIn_iff (hroot : IsAbsolute root)
    (hdirectory : directory = "/" ∨ IsAbsolute directory ∧ LiesIn root directory) (raw : Text) :
    LiesIn root (resolve raw directory root) ↔
      (("." : Text) <+: Text.trim raw → directory = "/" ∨ directory = root →
        segments root <+: asked (Text.trim raw) directory root ∨
          segments root <+: walk (asked (Text.trim raw) directory root)) := by
  rw [liesIn_iff hroot (resolve_isAbsolute hroot raw directory), segments_resolve hroot,
    prefix_reached_iff]
  constructor
  · intro hlies _ _
    exact hlies
  · intro hlies
    by_cases hpoint : ("." : Text) <+: Text.trim raw
    · by_cases hend : directory = "/" ∨ directory = root
      · exact hlies hpoint hend
      · obtain ⟨htop, hne⟩ := not_or.1 hend
        obtain ⟨habsolute, hbelow⟩ := hdirectory.resolve_left htop
        exact .inl (prefix_asked_of_below hroot habsolute hbelow hne _)
    · exact .inl (prefix_asked_of_not_point hpoint)

/-- From a table two levels below the root, a path that goes up five ends below the root. -/
theorem climb_liesIn :
    IsAbsolute "/data" ∧ IsAbsolute "/data/town/inn" ∧ LiesIn "/data" "/data/town/inn" ∧
      LiesIn "/data" (resolve "../../../../../gem" "/data/town/inn" "/data") := by
  have hroot : IsAbsolute "/data" := ⟨segments "/data", by decide +kernel, by decide +kernel⟩
  have hdirectory : IsAbsolute "/data/town/inn" :=
    ⟨segments "/data/town/inn", by decide +kernel, by decide +kernel⟩
  have hlies : LiesIn "/data" "/data/town/inn" := by decide +kernel
  have hstays := resolve_liesIn_iff hroot (.inr ⟨hdirectory, hlies⟩) "../../../../../gem"
  have hdeep : ¬ (("/data/town/inn" : Text) = "/" ∨ ("/data/town/inn" : Text) = "/data") := by
    decide +kernel
  exact ⟨hroot, hdirectory, hlies, hstays.2 fun _ hend => absurd hend hdeep⟩

/-- From the top, a path that goes up once leaves a root that lies below the top. -/
theorem climb_leaves :
    IsAbsolute "/data" ∧ resolve "../gem" "/" "/data" = "/gem" ∧
      ¬ LiesIn "/data" (resolve "../gem" "/" "/data") := by
  have hroot : IsAbsolute "/data" := ⟨segments "/data", by decide +kernel, by decide +kernel⟩
  have hresolve : resolve "../gem" "/" "/data" = "/gem" := by decide +kernel
  have hout : ¬ LiesIn "/data" "/gem" := by decide +kernel
  rw [hresolve]
  exact ⟨hroot, rfl, hout⟩

end RandomTables.Path
