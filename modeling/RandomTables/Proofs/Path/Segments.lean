import Mathlib.Data.List.DropRight
import RandomTables.Path
import RandomTables.Proofs.Text.Pieces

/-!
# Segments

However many slashes stand between its segments, a path says the same, so everything that is done to
whole paths can be told by their segments: squeezing and finishing a path writes its segments down
again, and the parent of a path has all of them but the last.
-/
namespace RandomTables.Path

/-- The segments of a path. -/
def segments (s : Text) : List Segment := (Text.split '/' s).filter (· ≠ [])

/-- The segment can stand between two single slashes. -/
structure IsSolid (segment : Segment) : Prop where
  ne_nil : segment ≠ []
  noSlash : .char '/' ∉ segment

instance (segment : Segment) : Decidable (IsSolid segment) :=
  decidable_of_iff (segment ≠ [] ∧ .char '/' ∉ segment) ⟨fun h => ⟨h.1, h.2⟩, fun h => ⟨h.1, h.2⟩⟩

/-- Segments with a slash in front of each. -/
def spelled (segs : List Segment) : Text := segs.flatMap fun segment => .char '/' :: segment

/-- Segments with a slash in front of each and one behind them. -/
def closed (segs : List Segment) : Text := spelled segs ++ [.char '/']

/-- The path of some segments from the root, which is a slash alone if there are none. -/
def absolute (segs : List Segment) : Text := if segs = [] then [.char '/'] else spelled segs

/-! ## What the segments of a text are -/

@[simp] theorem segments_nil : segments [] = [] := rfl

theorem segments_of_solid {segment : Segment} (h : IsSolid segment) :
    segments segment = [segment] := by
  simp [segments, Text.split_of_not_mem h.noSlash, h.ne_nil]

/-- The segments of two texts with a slash between them. -/
theorem segments_append_slash (s t : Text) :
    segments (s ++ .char '/' :: t) = segments s ++ segments t := by
  have hpiece : ∀ piece u : Text, .char '/' ∉ piece →
      segments (piece ++ .char '/' :: u) = segments piece ++ segments u := by
    intro piece u hmem
    rw [segments, Text.split_append_cons hmem, segments, Text.split_of_not_mem hmem]
    exact List.filter_append [piece] _
  induction s using Text.separator_induction (.char '/') with
  | single piece hmem => exact hpiece piece t hmem
  | more piece rest hmem ih =>
    rw [List.append_assoc, List.cons_append, hpiece piece _ hmem, ih, hpiece piece rest hmem,
      List.append_assoc]

@[simp] theorem segments_slash (s : Text) : segments (.char '/' :: s) = segments s :=
  segments_append_slash [] s

@[simp] theorem segments_append_end (s : Text) : segments (s ++ [.char '/']) = segments s := by
  rw [segments_append_slash, segments_nil, List.append_nil]

theorem solid_of_mem_segments {s : Text} {segment : Segment} (h : segment ∈ segments s) :
    IsSolid segment := by
  obtain ⟨hmem, hne⟩ := List.mem_filter.1 h
  exact ⟨by simpa using hne, Text.not_mem_of_mem_split hmem⟩

/-- A segment ends where a slash follows. -/
theorem segments_solid_append {segment : Segment} (h : IsSolid segment) {t : Text}
    (ht : ∀ c ∈ t.head?, c = .char '/') : segments (segment ++ t) = segment :: segments t := by
  cases t with
  | nil => simp [segments_of_solid h]
  | cons c t =>
    obtain rfl := ht c rfl
    rw [segments_append_slash, segments_of_solid h, segments_slash, List.singleton_append]

/-! ## Segments that are written down -/

variable {segs more : List Segment}

@[simp] theorem spelled_nil : spelled [] = [] := rfl

@[simp] theorem spelled_cons (segment : Segment) (segs : List Segment) :
    spelled (segment :: segs) = .char '/' :: (segment ++ spelled segs) := rfl

@[simp] theorem spelled_append (segs more : List Segment) :
    spelled (segs ++ more) = spelled segs ++ spelled more := List.flatMap_append

theorem head_spelled_append (segs : List Segment) {t : Text}
    (ht : ∀ c ∈ t.head?, c = .char '/') : ∀ c ∈ (spelled segs ++ t).head?, c = .char '/' := by
  cases segs with
  | nil => exact ht
  | cons segment segs => simp

/-- Solid segments are read off again, whatever follows with a slash in front. -/
theorem segments_spelled_append (h : ∀ segment ∈ segs, IsSolid segment) {t : Text}
    (ht : ∀ c ∈ t.head?, c = .char '/') : segments (spelled segs ++ t) = segs ++ segments t := by
  induction segs with
  | nil => rfl
  | cons segment segs ih =>
    have hrest := ih fun other hother => h other (List.mem_cons_of_mem _ hother)
    have hhead := head_spelled_append segs ht
    rw [spelled_cons, List.cons_append, segments_slash, List.append_assoc,
      segments_solid_append (h segment (List.mem_cons_self ..)) hhead, hrest, List.cons_append]

theorem segments_spelled (h : ∀ segment ∈ segs, IsSolid segment) : segments (spelled segs) = segs := by
  have hnil : ∀ c ∈ ([] : Text).head?, c = .char '/' := by simp
  simpa using segments_spelled_append h hnil

theorem segments_closed (h : ∀ segment ∈ segs, IsSolid segment) : segments (closed segs) = segs := by
  rw [closed, segments_append_end, segments_spelled h]

theorem segments_absolute (h : ∀ segment ∈ segs, IsSolid segment) :
    segments (absolute segs) = segs := by
  unfold absolute
  split
  · next hnil => rw [hnil, segments_slash, segments_nil]
  · exact segments_spelled h

/-- A closed path starts with a slash. -/
theorem exists_closed_eq (segs : List Segment) : ∃ t, closed segs = .char '/' :: t := by
  cases segs with
  | nil => exact ⟨[], rfl⟩
  | cons segment segs => exact ⟨_, rfl⟩

theorem exists_absolute_eq (segs : List Segment) : ∃ t, absolute segs = .char '/' :: t := by
  cases segs with
  | nil => exact ⟨[], rfl⟩
  | cons segment segs => exact ⟨_, rfl⟩

/-- What spells solid segments ends in no slash. -/
theorem ne_slash_of_getLast_spelled (h : ∀ segment ∈ segs, IsSolid segment) :
    ∀ c ∈ (spelled segs).getLast?, c ≠ .char '/' := by
  induction segs with
  | nil => simp
  | cons segment segs ih =>
    intro c hc
    have hsolid := h segment (List.mem_cons_self ..)
    rw [spelled_cons, List.getLast?_cons, List.getLast?_append] at hc
    cases hlast : (spelled segs).getLast? with
    | some last =>
      rw [hlast] at hc
      obtain rfl : last = c := by simpa using hc
      exact ih (fun other hother => h other (List.mem_cons_of_mem _ hother)) last hlast
    | none =>
      obtain ⟨last, hsegment⟩ := Option.ne_none_iff_exists'.1
        (mt List.getLast?_eq_none_iff.1 hsolid.ne_nil)
      rw [hlast, hsegment] at hc
      obtain rfl : last = c := by simpa using hc
      rintro rfl
      exact hsolid.noSlash (List.mem_of_getLast? hsegment)

/-! ## Squeezing and finishing -/

/-- The slash that is left at the end of a squeezed path: there is one if the path ends in a slash
or holds nothing else. -/
def ending (s : Text) : Text :=
  if s.getLast?.getD (.char '/') = .char '/' then [.char '/'] else []

theorem ending_append_slash (s t : Text) : ending (s ++ .char '/' :: t) = ending t := by
  simp [ending, List.getLast?_append, List.getLast?_cons]

@[simp] theorem ending_append_end (s : Text) : ending (s ++ [.char '/']) = [.char '/'] := by
  rw [ending_append_slash]
  rfl

theorem ending_of_solid {segment : Segment} (h : IsSolid segment) : ending segment = [] := by
  obtain ⟨last, hlast⟩ := Option.ne_none_iff_exists'.1 (mt List.getLast?_eq_none_iff.1 h.ne_nil)
  have hne : last ≠ .char '/' := by
    rintro rfl
    exact h.noSlash (List.mem_of_getLast? hlast)
  simp [ending, hlast, hne]

theorem head_ending (s : Text) : ∀ c ∈ (ending s).head?, c = .char '/' := by
  unfold ending
  split <;> simp

theorem segments_ending (s : Text) : segments (ending s) = [] := by
  unfold ending
  split <;> rfl

theorem squeeze_slash_slash (s : Text) :
    squeeze (.char '/' :: .char '/' :: s) = squeeze (.char '/' :: s) := by
  rw [squeeze]

theorem squeeze_append {piece : Text} (h : .char '/' ∉ piece) (t : Text) :
    squeeze (piece ++ t) = piece ++ squeeze t := by
  induction piece with
  | nil => rfl
  | cons c piece ih =>
    have hc : c ≠ .char '/' := (List.ne_of_not_mem_cons h).symm
    rw [List.cons_append, squeeze, ih (List.not_mem_of_not_mem_cons h), List.cons_append]
    intro rest hslash
    exact absurd hslash hc

theorem squeeze_solid {segment : Segment} (h : IsSolid segment) (t : Text) :
    squeeze (.char '/' :: (segment ++ t)) = .char '/' :: (segment ++ squeeze t) := by
  obtain ⟨c, rest, rfl⟩ := List.exists_cons_of_ne_nil h.ne_nil
  have hc : c ≠ .char '/' := (List.ne_of_not_mem_cons h.noSlash).symm
  rw [← squeeze_append h.noSlash t, List.cons_append, squeeze]
  intro _ _ hrest
  exact absurd (List.cons.inj hrest).1 hc

/-- Squeezing writes the segments down again. -/
theorem squeeze_slash (s : Text) :
    squeeze (.char '/' :: s) = spelled (segments s) ++ ending s := by
  induction s using Text.separator_induction (.char '/') with
  | single piece hmem =>
    by_cases hnil : piece = []
    · subst hnil
      rfl
    · have hsolid : IsSolid piece := ⟨hnil, hmem⟩
      have hsqueeze := squeeze_solid hsolid []
      rw [List.append_nil] at hsqueeze
      rw [hsqueeze, segments_of_solid hsolid, ending_of_solid hsolid]
      simp [squeeze]
  | more piece rest hmem ih =>
    rw [segments_append_slash, ending_append_slash]
    by_cases hnil : piece = []
    · subst hnil
      rw [List.nil_append, squeeze_slash_slash, ih, segments_nil, List.nil_append]
    · have hsolid : IsSolid piece := ⟨hnil, hmem⟩
      rw [squeeze_solid hsolid, ih, segments_of_solid hsolid]
      simp

theorem squeeze_closed (s : Text) :
    squeeze (.char '/' :: (s ++ [.char '/'])) = closed (segments s) := by
  rw [squeeze_slash, segments_append_end, ending_append_end, closed]

/-- A path without segments ends in a slash. -/
theorem ending_of_segments_eq_nil {s : Text} (h : segments s = []) : ending s = [.char '/'] := by
  induction s using Text.separator_induction (.char '/') with
  | single piece hmem =>
    by_cases hnil : piece = []
    · subst hnil
      rfl
    · rw [segments_of_solid ⟨hnil, hmem⟩] at h
      cases h
  | more piece rest hmem ih =>
    rw [segments_append_slash] at h
    rw [ending_append_slash]
    exact ih (List.append_eq_nil_iff.1 h).2

/-- Slashes at the end are dropped back to the last segment. -/
theorem dropEnd_spelled_append (h : ∀ segment ∈ segs, IsSolid segment) (s : Text) :
    dropEnd (spelled segs ++ ending s) = spelled segs := by
  have hend : dropEnd (spelled segs) = spelled segs := by
    refine List.rdropWhile_eq_self_iff.2 fun hne hlast => ?_
    have hmem : (spelled segs).getLast hne ∈ (spelled segs).getLast? := by
      rw [List.getLast?_eq_some_getLast hne]
      rfl
    exact ne_slash_of_getLast_spelled h _ hmem (of_decide_eq_true hlast)
  unfold ending
  split
  · have hslash : dropEnd (spelled segs ++ [.char '/']) = dropEnd (spelled segs) :=
      List.rdropWhile_concat_pos _ _ _ (by simp)
    rw [hslash, hend]
  · rw [List.append_nil, hend]

theorem dropEnd_absolute (h : ∀ segment ∈ segs, IsSolid segment) :
    dropEnd (absolute segs) = spelled segs := by
  unfold absolute
  split
  · next hnil =>
    rw [hnil]
    rfl
  · have hnone : ending ['a'] = [] := by decide
    have hdrop := dropEnd_spelled_append h ['a']
    rwa [hnone, List.append_nil] at hdrop

/-- A finished path is the path of its segments. -/
theorem finish_slash (s : Text) : finish (.char '/' :: s) = absolute (segments s) := by
  have hsolid : ∀ segment ∈ segments s, IsSolid segment := fun _ h => solid_of_mem_segments h
  unfold finish
  rw [squeeze_slash]
  cases hsegs : segments s with
  | nil =>
    rw [ending_of_segments_eq_nil hsegs]
    rfl
  | cons segment segs =>
    rw [hsegs] at hsolid
    have hlong : 1 < (spelled (segment :: segs) ++ ending s).length := by
      have hne := List.length_pos_iff.2 (hsolid segment (List.mem_cons_self ..)).ne_nil
      simp only [spelled_cons, List.cons_append, List.length_cons, List.length_append]
      omega
    simp only [if_pos hlong, dropEnd_spelled_append hsolid]
    rfl

/-! ## The directory of a path -/

theorem beforeLastSlash_append (t : Text) {segment : Segment} (h : .char '/' ∉ segment) :
    beforeLastSlash (t ++ .char '/' :: segment) = t := by
  have hreverse : (t ++ .char '/' :: segment).reverse =
      segment.reverse ++ .char '/' :: t.reverse := by simp
  have hrun : ∀ c ∈ segment.reverse, decide (c ≠ .char '/') = true := by
    intro c hc
    rw [decide_eq_true_eq]
    rintro rfl
    exact h (List.mem_reverse.1 hc)
  rw [beforeLastSlash, hreverse, List.dropWhile_append_of_pos hrun]
  simp

/-- The parent of a path has all of its segments but the last. -/
theorem parent_eq (s : Text) : parent s = absolute (segments s).dropLast := by
  unfold parent
  rw [finish_slash]
  rcases List.eq_nil_or_concat (segments s) with hnil | ⟨init, last, hsegs⟩
  · rw [hnil]
    rfl
  · have hlast : IsSolid last := solid_of_mem_segments (s := s) (by simp [hsegs])
    have habsolute : absolute (segments s) = spelled init ++ .char '/' :: last := by
      simp [absolute, hsegs]
    rw [habsolute, beforeLastSlash_append _ hlast.noSlash, hsegs, List.concat_eq_append,
      List.dropLast_concat]
    cases init with
    | nil => rfl
    | cons segment init => rfl

end RandomTables.Path
