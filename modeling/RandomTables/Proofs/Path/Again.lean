import RandomTables.Proofs.Path.Confined

/-!
# Resolving a path once more

A path that was resolved is resolved to itself again if it lies in the root and does not end in a
blank (`resolve_resolve_iff`). Otherwise the second time differs: a path outside the root is taken
to start at the root, and a blank at the end, which can stand there once a `.` or `..` behind it was
taken out, is trimmed off.
-/
namespace RandomTables.Path

/-- What follows some segments in others that start with them; all of the others if they do not. -/
def behind (front segs : List Segment) : List Segment :=
  if front <+: segs then segs.drop front.length else segs

variable {root s w : Text} {front init segs : List Segment}

theorem behind_append (front segs : List Segment) : behind front (front ++ segs) = segs := by
  simp [behind]

theorem behind_of_not_front (h : ¬ front <+: segs) : behind front segs = segs := if_neg h

/-- Names are walked to themselves below what they start with. -/
theorem append_walk_behind_iff (h : ∀ name ∈ segs, IsName name) :
    front ++ walk (behind front segs) = segs ↔ front <+: segs := by
  constructor
  · intro heq
    exact ⟨_, heq⟩
  · rintro ⟨rest, rfl⟩
    rw [behind_append, walk_of_names fun name hname => h name (List.mem_append_right _ hname)]

theorem weight_segments_of_not_mem (h : .char '/' ∉ w) : weight (segments w) = w.length := by
  by_cases hnil : w = []
  · rw [hnil]
    rfl
  · rw [segments_of_solid ⟨hnil, h⟩, weight_singleton]

theorem trim_last_part (init : List Segment) (w : Text) :
    Text.trim (spelled init ++ .char '/' :: w) = spelled init ++ .char '/' :: Text.trimEnd w := by
  have hslash : ∀ c ∈ (.char '/' :: w : Text).head?, c = .char '/' := by simp
  have hhead : ∀ c ∈ (spelled init ++ .char '/' :: w).head?, Text.isBlank c = false := by
    intro c hc
    obtain rfl := head_spelled_append init hslash c hc
    rfl
  rw [Text.trim, Text.trimStart_of_head hhead, Text.trimEnd_append_cons rfl]

/-- What starts with a slash asks for its own segments, below the root unless it says so itself. -/
theorem asked_slash (h : IsAbsolute root) (t directory : Text) :
    asked (.char '/' :: t) directory root =
      if isBelow (dropEnd root) (.char '/' :: t) then segments t
      else segments root ++ segments t := by
  have hdollar : ¬ ((.char '/' :: t : Text) = "$" ∨ ("$/" : Text) <+: .char '/' :: t) := by
    rintro (hone | ⟨u, htwo⟩)
    · cases hone
    · cases htwo
  have hpoint : ¬ ("." : Text) <+: .char '/' :: t := by
    rintro ⟨u, hu⟩
    cases hu
  simp only [asked, if_neg hdollar, if_neg hpoint, isBelow_dropEnd_iff h, segments_slash]

/-- A path that starts with a slash and has no two of them in a row leads below the root in any
case: along what follows the root in it, or along all of it. -/
theorem reached_asked_last_part (h : IsAbsolute root) (hinit : ∀ segment ∈ init, IsSolid segment)
    (hw : .char '/' ∉ w) (directory : Text) :
    reached root (asked (spelled init ++ .char '/' :: w) directory root) =
      segments root ++ walk (behind (segments root) (init ++ segments w)) := by
  have hslash : ∀ c ∈ (.char '/' :: w : Text).head?, c = .char '/' := by simp
  have hhead := head_spelled_append init hslash
  have hbelow := isBelow_last_part h hinit hw
  have hread := segments_last_part hinit w
  cases hcons : spelled init ++ .char '/' :: w with
  | nil => exact absurd hcons (List.append_ne_nil_of_right_ne_nil _ nofun)
  | cons c t =>
    rw [hcons] at hhead hbelow hread
    obtain rfl := hhead c rfl
    rw [segments_slash] at hread
    rw [asked_slash h, hread]
    by_cases hfront : segments root <+: init ++ segments w
    · by_cases hnil : segments root = []
      · simp [hnil, reached, behind]
      · rw [if_pos (hbelow.2 ⟨hnil, hfront⟩), reached, if_pos hfront, behind, if_pos hfront]
    · rw [if_neg fun hroot => hfront (hbelow.1 hroot).2, reached,
        if_pos (List.prefix_append ..), List.drop_left, behind_of_not_front hfront]

/-- Without the blanks at its end, a path leads to where it did only if it is the root and leads
to the top without them. -/
theorem append_walk_behind_trimEnd_iff (hw : .char '/' ∉ w) (hblank : Text.trimEnd w ≠ w) :
    front ++ walk (behind front (init ++ segments (Text.trimEnd w))) = init ++ segments w ↔
      init ++ segments w = front ∧ walk (init ++ segments (Text.trimEnd w)) = [] := by
  have hw' : .char '/' ∉ Text.trimEnd w := fun hmem => hw ((Text.trimEnd_prefix w).subset hmem)
  have hlight : weight (init ++ segments (Text.trimEnd w)) < weight (init ++ segments w) := by
    have hlt := Text.length_trimEnd_lt hblank
    rw [weight_append, weight_append, weight_segments_of_not_mem hw,
      weight_segments_of_not_mem hw']
    omega
  constructor
  · intro heq
    by_cases hfront : front <+: init ++ segments (Text.trimEnd w)
    · obtain ⟨rest, hrest⟩ := hfront
      rw [← hrest, behind_append] at heq
      rw [← hrest, ← heq, weight_append, weight_append] at hlight
      have hle := weight_walk_le rest
      omega
    · have hne : w ≠ [] := by
        rintro rfl
        exact hblank rfl
      have hwhole : front <+: init ++ segments w := ⟨_, heq⟩
      rw [behind_of_not_front hfront] at heq
      rw [segments_of_solid ⟨hne, hw⟩] at hwhole heq ⊢
      rcases List.prefix_concat_iff.1 hwhole with rfl | hinit
      · exact ⟨rfl, List.append_right_eq_self.1 heq⟩
      · exact absurd (hinit.trans (List.prefix_append ..)) hfront
  · rintro ⟨rfl, hwalk⟩
    have hfront : ¬ init ++ segments w <+: init ++ segments (Text.trimEnd w) := by
      rintro ⟨rest, hrest⟩
      rw [← hrest, weight_append] at hlight
      omega
    rw [behind_of_not_front hfront, hwalk, List.append_nil]

/-- An absolute path is resolved to itself if it lies in the root and has no blank at its end. The
root alone also is if it has one and leads to the top without. -/
theorem resolve_absolute_iff (hroot : IsAbsolute root) (hs : IsAbsolute s) (directory : Text) :
    resolve s directory root = s ↔
      LiesIn root s ∧ (Text.trim s = s ∨ s = root ∧ walk (segments (Text.trim root)) = []) := by
  obtain ⟨init, w, hinit, hw, hlast⟩ := exists_last_part hs
  have hw' : .char '/' ∉ Text.trimEnd w := fun hmem => hw ((Text.trimEnd_prefix w).subset hmem)
  have htrim : Text.trim s = spelled init ++ .char '/' :: Text.trimEnd w := by
    rw [hlast, trim_last_part]
  have hread : segments s = init ++ segments w := by rw [hlast, segments_last_part hinit]
  have htrimmed : Text.trim s = s ↔ Text.trimEnd w = w := by
    rw [htrim, hlast]
    simp
  have hresolve : segments (resolve s directory root) =
      segments root ++ walk (behind (segments root) (init ++ segments (Text.trimEnd w))) := by
    rw [segments_resolve hroot, htrim, reached_asked_last_part hroot hinit hw']
  rw [(resolve_isAbsolute hroot s directory).eq_iff hs, hresolve, liesIn_iff hroot hs, htrimmed,
    hread]
  by_cases hblank : Text.trimEnd w = w
  · have hnames : ∀ name ∈ init ++ segments w, IsName name := hread ▸ name_of_mem_segments hs
    rw [hblank, append_walk_behind_iff hnames]
    simp
  · rw [append_walk_behind_trimEnd_iff hw hblank]
    have hsame : s = root ↔ init ++ segments w = segments root := by
      rw [hs.eq_iff hroot, hread]
    have hshorter : segments (Text.trim s) = init ++ segments (Text.trimEnd w) := by
      rw [htrim, segments_last_part hinit]
    rw [← hsame, ← hshorter]
    constructor
    · rintro ⟨rfl, hwalk⟩
      exact ⟨hread ▸ List.prefix_refl _, .inr ⟨rfl, hwalk⟩⟩
    · rintro ⟨_, hfixed⟩
      obtain ⟨rfl, hwalk⟩ := hfixed.resolve_left hblank
      exact ⟨rfl, hwalk⟩

/-- A path that was resolved is resolved to itself again, from any table, exactly if it lies in the
root and does not end in a blank. A root that ends in one is resolved to itself as well if without
its blanks it leads to the top. -/
theorem resolve_resolve_iff (h : IsAbsolute root) (raw directory directory' : Text) :
    resolve (resolve raw directory root) directory' root = resolve raw directory root ↔
      LiesIn root (resolve raw directory root) ∧
        (Text.trim (resolve raw directory root) = resolve raw directory root ∨
          resolve raw directory root = root ∧ walk (segments (Text.trim root)) = []) :=
  resolve_absolute_iff h (resolve_isAbsolute h raw directory) directory'

/-- From a table below the root, a path is resolved to one that is resolved to itself from
elsewhere. -/
theorem gem_resolved_again :
    IsAbsolute "/data" ∧ resolve "../gem" "/data/town/inn" "/data" = "/data/gem" ∧
      resolve "/data/gem" "/" "/data" = "/data/gem" := by
  have hroot : IsAbsolute "/data" := ⟨segments "/data", by decide +kernel, by decide +kernel⟩
  have hfirst : resolve "../gem" "/data/town/inn" "/data" = "/data/gem" := by decide +kernel
  have hlies : LiesIn "/data" "/data/gem" := by decide +kernel
  have htrim : Text.trim "/data/gem" = "/data/gem" := by decide +kernel
  have hagain := resolve_resolve_iff hroot "../gem" "/data/town/inn" "/"
  rw [hfirst] at hagain
  exact ⟨hroot, hfirst, hagain.2 ⟨hlies, .inl htrim⟩⟩

/-- A blank that stood in front of a `.` is at the end the first time and is trimmed off the second
time. -/
theorem gem_blank_not_fixed :
    IsAbsolute "/" ∧ resolve "gem /." "/" "/" = "/gem " ∧
      resolve (resolve "gem /." "/" "/") "/" "/" = "/gem" ∧
      resolve (resolve "gem /." "/" "/") "/" "/" ≠ resolve "gem /." "/" "/" := by
  have hroot : IsAbsolute "/" := ⟨[], by simp, rfl⟩
  have hfirst : resolve "gem /." "/" "/" = "/gem " := by decide +kernel
  have hsecond : resolve "/gem " "/" "/" = "/gem" := by decide +kernel
  rw [hfirst, hsecond]
  exact ⟨hroot, rfl, rfl, by decide +kernel⟩

end RandomTables.Path
