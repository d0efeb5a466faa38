import RandomTables.Proofs.Path.Reduced

/-!
# Resolved paths

A raw path asks for some segments, below the root, from a directory, or as it says. If these start
with the root, they are walked along below it, and otherwise from the top. That is all there is to
resolving a path (`resolve_eq_reached`): what it comes to are names with a slash in front of each.
-/
namespace RandomTables.Path

/-- The path has a slash in front of each of some names and no other, or is a slash alone. -/
def IsAbsolute (s : Text) : Prop := ∃ names, (∀ name ∈ names, IsName name) ∧ s = absolute names

/-- The segments that a path without blanks at its ends asks for in the table at `directory`: those
of the root and those that follow a `$`; if it starts with a point, those of the directory that
holds the table, and its own; and otherwise its own, below the root unless it says so itself. -/
def asked (raw directory root : Text) : List Segment :=
  if raw = "$" ∨ ("$/" : Text) <+: raw then segments root ++ segments (raw.drop 1)
  else if ("." : Text) <+: raw then (segments directory).dropLast ++ segments raw
  else if root ≠ "/" ∧ (raw = root ∨ (root ++ "/" : Text) <+: raw) then segments raw
  else segments root ++ segments raw

/-- Where segments lead: they are walked along below the root if they start with it, and otherwise
from the top. -/
def reached (root : Text) (segs : List Segment) : List Segment :=
  if segments root <+: segs then segments root ++ walk (segs.drop (segments root).length)
  else walk segs

variable {names segs : List Segment} {root : Text}

theorem solid_of_names (h : ∀ name ∈ names, IsName name) : ∀ name ∈ names, IsSolid name :=
  fun name hname => (h name hname).toIsSolid

theorem IsAbsolute.exists_cons (h : IsAbsolute root) : ∃ t, root = .char '/' :: t := by
  obtain ⟨names, _, rfl⟩ := h
  exact exists_absolute_eq names

theorem name_of_mem_segments (h : IsAbsolute root) : ∀ name ∈ segments root, IsName name := by
  obtain ⟨names, hnames, rfl⟩ := h
  rwa [segments_absolute (solid_of_names hnames)]

theorem absolute_segments (h : IsAbsolute root) : absolute (segments root) = root := by
  obtain ⟨names, hnames, rfl⟩ := h
  rw [segments_absolute (solid_of_names hnames)]

/-- Absolute paths with the same segments are the same. -/
theorem IsAbsolute.eq_iff {s t : Text} (hs : IsAbsolute s) (ht : IsAbsolute t) :
    s = t ↔ segments s = segments t := by
  constructor
  · intro heq
    rw [heq]
  · intro heq
    rw [← absolute_segments hs, heq, absolute_segments ht]

theorem dropEnd_root (h : IsAbsolute root) : dropEnd root = spelled (segments root) := by
  obtain ⟨names, hnames, rfl⟩ := h
  have hsolid := solid_of_names hnames
  rw [segments_absolute hsolid, dropEnd_absolute hsolid]

/-- Only the root that is a slash alone has no segments. -/
theorem segments_eq_nil_iff (h : IsAbsolute root) : segments root = [] ↔ root = "/" := by
  constructor
  · intro hnil
    rw [← absolute_segments h, hnil]
    rfl
  · rintro rfl
    rfl

/-- Only the root that is a slash alone ends in one. -/
theorem dropEnd_of_ne_slash (h : IsAbsolute root) (hne : root ≠ "/") : dropEnd root = root := by
  have habsolute := absolute_segments h
  rwa [absolute, if_neg (mt (segments_eq_nil_iff h).1 hne), ← dropEnd_root h] at habsolute

theorem name_of_mem_reached (hroot : IsAbsolute root) (h : ∀ segment ∈ segs, IsSolid segment) :
    ∀ name ∈ reached root segs, IsName name := by
  intro name hname
  unfold reached at hname
  split at hname
  · rcases List.mem_append.1 hname with hfront | hrest
    · exact name_of_mem_segments hroot name hfront
    · exact name_of_mem_walk (fun segment hmem => h segment (List.mem_of_mem_drop hmem)) name hrest
  · exact name_of_mem_walk h name hname

/-! ## Joining -/

theorem isBelow_eq_true_iff {front s : Text} :
    isBelow front s ↔ front ≠ [] ∧ (s = front ∨ (front ++ "/" : Text) <+: s) := by
  simp [isBelow, Text.startsWith, List.isPrefixOf_iff_prefix]

/-- A raw path that says itself that it lies below the root. -/
theorem isBelow_dropEnd_iff (h : IsAbsolute root) {raw : Text} :
    isBelow (dropEnd root) raw ↔ root ≠ "/" ∧ (raw = root ∨ (root ++ "/" : Text) <+: raw) := by
  rw [isBelow_eq_true_iff]
  by_cases hroot : root = "/"
  · rw [dropEnd_root h, (segments_eq_nil_iff h).2 hroot, spelled_nil]
    simp [hroot]
  · obtain ⟨t, ht⟩ := h.exists_cons
    have hne : root ≠ [] := by simp [ht]
    rw [dropEnd_of_ne_slash h hroot]
    simp [hroot, hne]

theorem segments_join (h : IsAbsolute root) (raw directory : Text) :
    segments (join raw directory root) = asked raw directory root := by
  have hdollar : raw.startsWith "$/" || raw == "$" ↔ raw = "$" ∨ ("$/" : Text) <+: raw := by
    simp [Text.startsWith, List.isPrefixOf_iff_prefix, or_comm]
  have hpoint : raw.startsWith "." ↔ ("." : Text) <+: raw := by
    simp [Text.startsWith, List.isPrefixOf_iff_prefix]
  have hjoined : ∀ s t : Text, segments (s ++ "/" ++ t) = segments s ++ segments t := by
    intro s t
    rw [List.append_assoc]
    exact segments_append_slash s t
  have hparent : segments (parent directory) = (segments directory).dropLast := by
    rw [parent_eq]
    exact segments_absolute fun segment hmem =>
      solid_of_mem_segments (List.dropLast_subset _ hmem)
  simp only [join, asked, hdollar, hpoint, isBelow_dropEnd_iff h, apply_ite segments, hjoined,
    hparent]

theorem exists_join_eq (h : IsAbsolute root) (raw directory : Text) :
    ∃ t, join raw directory root = .char '/' :: t := by
  obtain ⟨t, ht⟩ := h.exists_cons
  obtain ⟨u, hu⟩ := exists_absolute_eq (segments directory).dropLast
  unfold join
  split
  · exact ⟨_, by rw [ht]; rfl⟩
  · split
    · exact ⟨_, by rw [parent_eq, hu]; rfl⟩
    · split
      · next hbelow =>
        obtain ⟨_, rfl | ⟨v, rfl⟩⟩ := (isBelow_dropEnd_iff h).1 hbelow
        · exact ⟨t, ht⟩
        · exact ⟨_, by rw [ht]; rfl⟩
      · exact ⟨_, by rw [ht]; rfl⟩

/-! ## Splitting off the root -/

/-- A path with single slashes lies below the root exactly if its segments start with those of the
root. -/
theorem isBelow_spelled_iff (hnames : ∀ name ∈ names, IsSolid name)
    (hsegs : ∀ segment ∈ segs, IsSolid segment) {t : Text} (ht : ∀ c ∈ t.head?, c = .char '/')
    (hnil : segments t = []) :
    isBelow (spelled names) (spelled segs ++ t) ↔ names ≠ [] ∧ names <+: segs := by
  have hread : segments (spelled segs ++ t) = segs := by
    rw [segments_spelled_append hsegs ht, hnil, List.append_nil]
  have hempty : spelled names ≠ [] ↔ names ≠ [] := by
    cases names <;> simp
  rw [isBelow_eq_true_iff, hempty]
  refine and_congr_right fun _ => ?_
  constructor
  · rintro (heq | ⟨u, hu⟩)
    · rw [heq, segments_spelled hnames] at hread
      exact hread ▸ List.prefix_refl _
    · rw [← hu, List.append_assoc] at hread
      change segments (spelled names ++ .char '/' :: u) = segs at hread
      rw [segments_append_slash, segments_spelled hnames] at hread
      exact hread ▸ List.prefix_append _ _
  · rintro ⟨rest, rfl⟩
    rw [spelled_append, List.append_assoc]
    have hhead := head_spelled_append rest ht
    cases hrest : spelled rest ++ t with
    | nil => exact .inl (List.append_nil _)
    | cons c u =>
      rw [hrest] at hhead
      obtain rfl := hhead c rfl
      refine .inr ⟨u, ?_⟩
      rw [List.append_assoc]
      rfl

theorem splitRoot_squeeze (h : IsAbsolute root) (s : Text) :
    splitRoot (squeeze (.char '/' :: s)) root =
      if segments root ≠ [] ∧ segments root <+: segments s then
        (spelled (segments root),
          spelled ((segments s).drop (segments root).length) ++ ending s)
      else ([], spelled (segments s) ++ ending s) := by
  have hsolid : ∀ segment ∈ segments s, IsSolid segment := fun _ h => solid_of_mem_segments h
  have hbelow := isBelow_spelled_iff (solid_of_names (name_of_mem_segments h)) hsolid
    (head_ending s) (segments_ending s)
  simp only [splitRoot, dropEnd_root h, squeeze_slash, hbelow]
  split
  · next hroot =>
    obtain ⟨rest, hrest⟩ := hroot.2
    rw [← hrest, List.drop_left, spelled_append, List.append_assoc, List.drop_left]
  · rfl

/-- What follows the root is normalized to where its segments lead. -/
theorem normalize_rest (h : ∀ segment ∈ segs, IsSolid segment) (s : Text) :
    normalize (if (spelled segs ++ ending s).isEmpty then ['/'] else spelled segs ++ ending s) =
      closed (walk segs) := by
  have hread : segments (spelled segs ++ ending s) = segs := by
    rw [segments_spelled_append h (head_ending s), segments_ending, List.append_nil]
  have hhead := head_spelled_append segs (head_ending s)
  cases hrest : spelled segs ++ ending s with
  | nil =>
    rw [hrest] at hread
    rw [← hread]
    exact normalize_slash []
  | cons c t =>
    rw [hrest] at hread hhead
    obtain rfl := hhead c rfl
    rw [segments_slash] at hread
    rw [← hread]
    exact normalize_slash t

/-- The root and what was normalized below it make one path. -/
theorem finish_closed (hnames : ∀ name ∈ names, IsSolid name)
    (hsegs : ∀ segment ∈ segs, IsSolid segment) :
    finish (spelled names ++ closed segs) = absolute (names ++ segs) := by
  have happ : spelled names ++ closed segs = closed (names ++ segs) := by simp [closed]
  have hsolid : ∀ segment ∈ names ++ segs, IsSolid segment := fun segment hmem =>
    (List.mem_append.1 hmem).elim (hnames segment) (hsegs segment)
  obtain ⟨t, ht⟩ := exists_closed_eq (names ++ segs)
  have hread := segments_closed hsolid
  rw [ht, segments_slash] at hread
  rw [happ, ht, finish_slash, hread]

/-- A path is resolved to where the segments that it asks for lead. -/
theorem resolve_eq_absolute (h : IsAbsolute root) (raw directory : Text) :
    resolve raw directory root =
      absolute (reached root (asked (Text.trim raw) directory root)) := by
  obtain ⟨t, ht⟩ := exists_join_eq h (Text.trim raw) directory
  have hasked := segments_join h (Text.trim raw) directory
  have hsolid : ∀ segment ∈ segments t, IsSolid segment := fun _ h => solid_of_mem_segments h
  rw [ht, segments_slash] at hasked
  rw [resolve, ht, splitRoot_squeeze h, ← hasked]
  by_cases hroot : segments root ≠ [] ∧ segments root <+: segments t
  · have hrest : ∀ segment ∈ (segments t).drop (segments root).length, IsSolid segment :=
      fun segment hmem => hsolid segment (List.mem_of_mem_drop hmem)
    have hfinish := finish_closed (solid_of_names (name_of_mem_segments h))
      (solid_of_names (name_of_mem_walk hrest))
    simp only [if_pos hroot, normalize_rest hrest, hfinish, reached, if_pos hroot.2]
  · have hreached : reached root (segments t) = walk (segments t) := by
      unfold reached
      split
      · next hfront =>
        have hnil : segments root = [] := by_contra fun hne => hroot ⟨hne, hfront⟩
        simp [hnil]
      · rfl
    have hnone : ∀ segment ∈ ([] : List Segment), IsSolid segment := by simp
    have hfinish := finish_closed hnone (solid_of_names (name_of_mem_walk hsolid))
    rw [spelled_nil, List.nil_append, List.nil_append] at hfinish
    simp only [if_neg hroot, normalize_rest hsolid, List.nil_append, hfinish, hreached]

theorem solid_of_mem_asked {raw directory : Text} :
    ∀ segment ∈ asked raw directory root, IsSolid segment := by
  intro segment hmem
  unfold asked at hmem
  split at hmem
  · exact (List.mem_append.1 hmem).elim solid_of_mem_segments solid_of_mem_segments
  · split at hmem
    · exact (List.mem_append.1 hmem).elim
        (fun hinit => solid_of_mem_segments (List.dropLast_subset _ hinit)) solid_of_mem_segments
    · split at hmem
      · exact solid_of_mem_segments hmem
      · exact (List.mem_append.1 hmem).elim solid_of_mem_segments solid_of_mem_segments

theorem segments_resolve (h : IsAbsolute root) (raw directory : Text) :
    segments (resolve raw directory root) =
      reached root (asked (Text.trim raw) directory root) := by
  rw [resolve_eq_absolute h]
  exact segments_absolute (solid_of_names (name_of_mem_reached h solid_of_mem_asked))

theorem resolve_isAbsolute (h : IsAbsolute root) (raw directory : Text) :
    IsAbsolute (resolve raw directory root) :=
  ⟨_, name_of_mem_reached h solid_of_mem_asked, resolve_eq_absolute h raw directory⟩

/-- Below a root that is an absolute path, the passes over a path always end where one more changes
nothing, and a path is resolved to where the segments that it asks for lead: a walk along them from
the root, or from the top if they do not start with the root, that goes up no further than that. So
what a path is resolved to has a slash in front of each of its names and no other, unless it is a
slash alone. -/
theorem resolve_eq_reached (h : IsAbsolute root) (raw directory : Text) :
    (∀ s, pass (normalize s) = normalize s) ∧
      resolve raw directory root =
        absolute (reached root (asked (Text.trim raw) directory root)) ∧
      IsAbsolute (resolve raw directory root) :=
  ⟨pass_normalize, resolve_eq_absolute h raw directory, resolve_isAbsolute h raw directory⟩

/-- From a table two levels below the root, a path goes up further than there are levels, past a
name that only looks like one of the two segments with a meaning. -/
theorem climb_resolved :
    IsAbsolute "/lib" ∧
      asked (Text.trim " ./.b/..././../..//../../../a/ ") "/lib/x/y" "/lib" =
        segments "/lib/x/./.b/..././../../../../../a" ∧
      resolve " ./.b/..././../..//../../../a/ " "/lib/x/y" "/lib" = "/lib/a" := by
  have hroot : IsAbsolute "/lib" := ⟨segments "/lib", by decide +kernel, by decide +kernel⟩
  have hasked : asked (Text.trim " ./.b/..././../..//../../../a/ ") "/lib/x/y" "/lib" =
      segments "/lib/x/./.b/..././../../../../../a" := by
    decide +kernel
  have hreached : absolute (reached "/lib" (segments "/lib/x/./.b/..././../../../../../a")) =
      "/lib/a" := by
    decide +kernel
  obtain ⟨_, hresolve, _⟩ :=
    resolve_eq_reached hroot " ./.b/..././../..//../../../a/ " "/lib/x/y"
  rw [hasked, hreached] at hresolve
  exact ⟨hroot, hasked, hresolve⟩

end RandomTables.Path
