import RandomTables.Proofs.Path.Again

/-!
# Extra slashes

A run of slashes says no more than one slash, and all but one of the ways to read a raw path see to
that: the path is joined to where it starts from, and its segments are the same however long the
runs between them are. Only the question whether a raw path starts with the root is put to the
path as it is written. So two spellings of a path that differ in their slashes come to the same
place unless just one of them spells out the root, and then still if the path goes all the way up
again (`resolve_eq_resolve_iff`).
-/
namespace RandomTables.Path

/-- The two paths differ in nothing but the lengths of their runs of slashes. -/
inductive AlikeInSlashes : Text → Text → Prop
  | nil : AlikeInSlashes [] []
  | other {c : CodePoint} {s t : Text} (hc : c ≠ .char '/') (rest : AlikeInSlashes s t) :
    AlikeInSlashes (c :: s) (c :: t)
  | run (m n : Nat) {s t : Text} (rest : AlikeInSlashes s t) :
    AlikeInSlashes (Text.copies (m + 1) (.char '/') ++ s) (Text.copies (n + 1) (.char '/') ++ t)

variable {s t u v root raw raw' : Text} {c : CodePoint}

/-! ## Squeezing -/

theorem copies_succ_append (n : Nat) (c : CodePoint) (s : Text) :
    Text.copies (n + 1) c ++ s = c :: (Text.copies n c ++ s) := rfl

theorem squeeze_cons (hc : c ≠ .char '/') (s : Text) : squeeze (c :: s) = c :: squeeze s := by
  have hsolid : .char '/' ∉ [c] := List.not_mem_cons_of_ne_of_not_mem hc.symm List.not_mem_nil
  exact squeeze_append hsolid s

theorem squeeze_slash_of_head (h : ∀ c ∈ s.head?, c ≠ .char '/') :
    squeeze (.char '/' :: s) = .char '/' :: squeeze s := by
  rw [squeeze]
  rintro rest _ rfl
  exact h _ rfl rfl

theorem squeeze_run (n : Nat) (s : Text) :
    squeeze (Text.copies (n + 1) (.char '/') ++ s) = squeeze (.char '/' :: s) := by
  induction n with
  | zero => rfl
  | succ n ih =>
    rw [copies_succ_append, copies_succ_append, squeeze_slash_slash, ← copies_succ_append, ih]

theorem head?_squeeze (s : Text) : (squeeze s).head? = s.head? := by
  fun_induction squeeze s with
  | case1 rest ih => exact ih
  | case2 c rest _ _ => rfl
  | case3 => rfl

/-- A text that starts with a slash starts with a run of them. -/
theorem exists_run_eq (s : Text) :
    ∃ n rest, .char '/' :: s = Text.copies (n + 1) (.char '/') ++ rest ∧
      ∀ c ∈ rest.head?, c ≠ .char '/' := by
  induction s with
  | nil => exact ⟨0, [], rfl, by simp⟩
  | cons c s ih =>
    by_cases hc : c = .char '/'
    · subst hc
      obtain ⟨n, rest, hrun, hrest⟩ := ih
      exact ⟨n + 1, rest, congrArg (.char '/' :: ·) hrun, hrest⟩
    · exact ⟨0, c :: s, rfl, by simpa using hc⟩

namespace AlikeInSlashes

protected theorem symm (h : AlikeInSlashes s t) : AlikeInSlashes t s := by
  induction h with
  | nil => exact .nil
  | other hc _ ih => exact .other hc ih
  | run m n _ ih => exact .run n m ih

/-- Two spellings are squeezed to the same, also behind one more slash. -/
theorem squeeze_eq (h : AlikeInSlashes s t) :
    squeeze s = squeeze t ∧ squeeze (.char '/' :: s) = squeeze (.char '/' :: t) := by
  induction h with
  | nil => exact ⟨rfl, rfl⟩
  | @other c s t hc _ ih =>
    have hhead : ∀ u : Text, ∀ d ∈ (c :: u).head?, d ≠ .char '/' := by simpa using hc
    rw [squeeze_slash_of_head (hhead s), squeeze_slash_of_head (hhead t), squeeze_cons hc,
      squeeze_cons hc, ih.1]
    exact ⟨rfl, rfl⟩
  | run m n _ ih =>
    have hlonger : ∀ (n : Nat) (s : Text),
        squeeze (.char '/' :: (Text.copies (n + 1) (.char '/') ++ s)) = squeeze (.char '/' :: s) :=
      fun n s => squeeze_run (n + 1) s
    rw [squeeze_run, squeeze_run, hlonger, hlonger]
    exact ⟨ih.2, ih.2⟩

/-- One slash more at the front makes no difference. -/
theorem slash (h : AlikeInSlashes (.char '/' :: s) t) :
    AlikeInSlashes (.char '/' :: .char '/' :: s) t := by
  generalize hs : (.char '/' :: s : Text) = s' at h ⊢
  cases h with
  | nil => cases hs
  | other hc _ => exact absurd (List.cons.inj hs).1.symm hc
  | run m n rest => exact .run (m + 1) n rest

end AlikeInSlashes

/-- Two paths differ in nothing but their slashes exactly if they are squeezed to the same. -/
theorem alikeInSlashes_iff : AlikeInSlashes s t ↔ squeeze s = squeeze t := by
  refine ⟨fun h => h.squeeze_eq.1, fun h => ?_⟩
  fun_induction squeeze s generalizing t with
  | case1 rest ih => exact (ih h).slash
  | case2 c rest hnext ih =>
    have hhead : t.head? = some c := by rw [← head?_squeeze, ← h, List.head?_cons]
    obtain ⟨more, rfl⟩ := List.head?_eq_some_iff.1 hhead
    by_cases hc : c = .char '/'
    · subst hc
      obtain ⟨n, after, hrun, hafter⟩ := exists_run_eq more
      rw [hrun, squeeze_run, squeeze_slash_of_head hafter] at h
      rw [hrun]
      exact .run 0 n (ih (List.cons.inj h).2)
    · rw [squeeze_cons hc] at h
      exact .other hc (ih (List.cons.inj h).2)
  | case3 =>
    cases t with
    | nil => exact .nil
    | cons c t =>
      have hhead := congrArg List.head? h
      rw [head?_squeeze] at hhead
      cases hhead

instance (s t : Text) : Decidable (AlikeInSlashes s t) := decidable_of_iff _ alikeInSlashes_iff.symm

namespace AlikeInSlashes

theorem segments_eq (h : AlikeInSlashes s t) : segments s = segments t := by
  have hread : ∀ u : Text, segments (squeeze (.char '/' :: u)) = segments u := by
    intro u
    have hsolid : ∀ segment ∈ segments u, IsSolid segment := fun _ h => solid_of_mem_segments h
    rw [squeeze_slash, segments_spelled_append hsolid (head_ending u), segments_ending,
      List.append_nil]
  rw [← hread s, ← hread t, h.squeeze_eq.2]

theorem head?_eq (h : AlikeInSlashes s t) : s.head? = t.head? := by
  rw [← head?_squeeze s, ← head?_squeeze t, h.squeeze_eq.1]

/-! ## Trimming -/

theorem append (h : AlikeInSlashes s t) (h' : AlikeInSlashes u v) :
    AlikeInSlashes (s ++ u) (t ++ v) := by
  induction h with
  | nil => exact h'
  | other hc _ ih => exact .other hc ih
  | run m n _ ih =>
    rw [List.append_assoc, List.append_assoc]
    exact .run m n ih

theorem reverse (h : AlikeInSlashes s t) : AlikeInSlashes s.reverse t.reverse := by
  induction h with
  | nil => exact .nil
  | other hc _ ih =>
    rw [List.reverse_cons, List.reverse_cons]
    exact ih.append (.other hc .nil)
  | run m n _ ih =>
    have hrun : AlikeInSlashes (Text.copies (m + 1) (.char '/'))
        (Text.copies (n + 1) (.char '/')) := by
      simpa using AlikeInSlashes.run m n .nil
    simpa [Text.copies] using ih.append hrun

theorem trimStart (h : AlikeInSlashes s t) :
    AlikeInSlashes (Text.trimStart s) (Text.trimStart t) := by
  induction h with
  | nil => exact .nil
  | @other c s t hc rest ih =>
    by_cases hblank : Text.isBlank c
    · simpa [Text.trimStart, hblank] using ih
    · have hc' : Text.isBlank c = false := by simpa using hblank
      rw [Text.trimStart_cons_of_not_isBlank hc', Text.trimStart_cons_of_not_isBlank hc']
      exact .other hc rest
  | run m n rest _ =>
    rw [copies_succ_append, copies_succ_append, Text.trimStart_cons_of_not_isBlank rfl,
      Text.trimStart_cons_of_not_isBlank rfl]
    exact .run m n rest

theorem trim (h : AlikeInSlashes s t) : AlikeInSlashes (Text.trim s) (Text.trim t) :=
  h.trimStart.reverse.trimStart.reverse

/-- Without a first character that is no slash, they still differ in their slashes only. -/
theorem drop_one (h : AlikeInSlashes s t) (hs : ∀ c ∈ s.head?, c ≠ .char '/') :
    AlikeInSlashes (s.drop 1) (t.drop 1) := by
  cases h with
  | nil => exact .nil
  | other _ rest => exact rest
  | run m n _ => exact absurd rfl (hs _ rfl)

end AlikeInSlashes

/-! ## Reading the start of a path -/

theorem point_prefix_iff (s : Text) : ("." : Text) <+: s ↔ s.head? = some (.char '.') := by
  cases s with
  | nil => simp [Text.ofString]
  | cons c s => simp [Text.ofString, List.cons_prefix_cons, eq_comm]

/-- A path hangs from the root if it is a dollar sign or goes on with a slash behind one. -/
theorem dollar_iff (s : Text) : s = "$" ∨ ("$/" : Text) <+: s ↔
    s.head? = some (.char '$') ∧ ∀ c ∈ (s.drop 1).head?, c = .char '/' := by
  cases s with
  | nil => simp [Text.ofString]
  | cons c s =>
    cases s with
    | nil => simp [Text.ofString, List.cons_prefix_cons]
    | cons d s => simp [Text.ofString, List.cons_prefix_cons, eq_comm]

theorem AlikeInSlashes.dollar_iff (h : AlikeInSlashes s t) :
    s = "$" ∨ ("$/" : Text) <+: s ↔ t = "$" ∨ ("$/" : Text) <+: t := by
  rw [Path.dollar_iff, Path.dollar_iff, ← h.head?_eq]
  refine and_congr_right fun hs => ?_
  have hdollar : ∀ c ∈ s.head?, c ≠ .char '/' := by simp [hs]
  rw [(h.drop_one hdollar).head?_eq]

theorem LiesIn.head?_eq (hroot : IsAbsolute root) (h : LiesIn root raw) :
    raw.head? = some (.char '/') := by
  by_cases hslash : root = "/"
  · subst hslash
    obtain rfl | ⟨t, rfl⟩ := h
    · rfl
    · rfl
  · obtain ⟨t, ht⟩ := hroot.exists_cons
    rw [LiesIn, dropEnd_of_ne_slash hroot hslash, ht] at h
    obtain rfl | ⟨u, rfl⟩ := h
    · rfl
    · rfl

/-- Every path that starts with a slash lies in the root that is a slash alone. -/
theorem liesIn_slash (h : raw.head? = some (.char '/')) : LiesIn "/" raw := by
  obtain ⟨t, rfl⟩ := List.head?_eq_some_iff.1 h
  exact .inr ⟨t, rfl⟩

/-- A raw path says itself that it lies below the root if its text lies in it. -/
theorem isBelow_iff_liesIn (hroot : IsAbsolute root) (hne : root ≠ "/") :
    isBelow (dropEnd root) raw ↔ LiesIn root raw := by
  rw [isBelow_dropEnd_iff hroot, LiesIn, dropEnd_of_ne_slash hroot hne]
  exact and_iff_right hne

/-! ## Resolving two spellings -/

/-- Two spellings ask for the same if both of them or neither spell out the root. -/
theorem AlikeInSlashes.asked_eq (hroot : IsAbsolute root) (h : AlikeInSlashes s t)
    (hsame : LiesIn root s ↔ LiesIn root t) (directory : Text) :
    asked s directory root = asked t directory root := by
  have hbelow : ∀ u : Text, (root ≠ "/" ∧ (u = root ∨ (root ++ "/" : Text) <+: u)) ↔
      root ≠ "/" ∧ LiesIn root u := by
    intro u
    refine and_congr_right fun hne => ?_
    rw [← isBelow_iff_liesIn hroot hne, isBelow_dropEnd_iff hroot, and_iff_right hne]
  by_cases hdollar : s = "$" ∨ ("$/" : Text) <+: s
  · have hdrop := h.drop_one (by simp [((Path.dollar_iff s).1 hdollar).1])
    rw [asked, if_pos hdollar, asked, if_pos (h.dollar_iff.1 hdollar), hdrop.segments_eq]
  · simp only [asked, if_neg hdollar, if_neg (mt h.dollar_iff.2 hdollar), point_prefix_iff,
      h.head?_eq, hbelow, hsame, h.segments_eq]

theorem reached_append (root : Text) (segs : List Segment) :
    reached root (segments root ++ segs) = segments root ++ walk segs := by
  rw [reached, if_pos (List.prefix_append ..), List.drop_left]

/-- Where only the first of two spellings says itself that it lies below the root, the other one
goes down along the root twice. Both lead to the same place only if the way leads up out of both. -/
theorem AlikeInSlashes.reached_eq_iff (hroot : IsAbsolute root) (h : AlikeInSlashes s t)
    (hs : LiesIn root s) (ht : ¬ LiesIn root t) (directory : Text) :
    reached root (asked s directory root) = reached root (asked t directory root) ↔
      ∃ climb, segments root ++ climb <+: segments s ∧ walk (segments root ++ climb) = [] := by
  have hhead := hs.head?_eq hroot
  have hhead' := h.head?_eq ▸ hhead
  have hne : root ≠ "/" := by
    rintro rfl
    exact ht (liesIn_slash hhead')
  have hsegs := h.segments_eq
  obtain ⟨u, rfl⟩ := List.head?_eq_some_iff.1 hhead
  obtain ⟨v, rfl⟩ := List.head?_eq_some_iff.1 hhead'
  rw [segments_slash, segments_slash] at hsegs
  have hasked : asked (.char '/' :: u) directory root = segments u := by
    rw [asked_slash hroot, if_pos ((isBelow_iff_liesIn hroot hne).2 hs)]
  have hasked' : asked (.char '/' :: v) directory root = segments root ++ segments u := by
    rw [asked_slash hroot, if_neg (mt (isBelow_iff_liesIn hroot hne).1 ht), hsegs]
  have hpoint : ¬ ("." : Text) <+: .char '/' :: u := by simp [point_prefix_iff]
  have hfront : segments root <+: segments u := hasked ▸ prefix_asked_of_not_point hpoint
  obtain ⟨rest, hrest⟩ := hfront
  have hwalk : ∀ segs, walk (segments root ++ segs) = segs.foldl step (segments root ++ []) := by
    intro segs
    rw [walk, List.foldl_append, ← walk, walk_of_names (name_of_mem_segments hroot),
      List.append_nil]
  have hleaves := mt (segments_eq_nil_iff hroot).1 hne
  rw [hasked, hasked', segments_slash, ← hrest, reached_append, reached_append,
    List.append_cancel_left_eq, eq_comm, hwalk]
  simp only [List.prefix_append_right_inj, hwalk]
  exact foldl_step_append_eq_iff hleaves [] rest

theorem AlikeInSlashes.resolve_eq (hroot : IsAbsolute root) (h : AlikeInSlashes raw raw')
    (hsame : LiesIn root (Text.trim raw) ↔ LiesIn root (Text.trim raw')) (directory : Text) :
    resolve raw directory root = resolve raw' directory root := by
  rw [resolve_eq_absolute hroot, resolve_eq_absolute hroot, h.trim.asked_eq hroot hsame]

/-- Two raw paths that differ in nothing but the lengths of their runs of slashes are resolved to
the same path, from every table, unless just one of them says itself that it lies in the root: a
run that is too long in front of the root's own segments, or between them, hides the root, so that
the path is taken to start there once more. Even then both come to the same if the path goes up
again past all of the root. -/
theorem resolve_eq_resolve_iff (hroot : IsAbsolute root) (h : AlikeInSlashes raw raw')
    (directory : Text) :
    resolve raw directory root = resolve raw' directory root ↔
      (LiesIn root (Text.trim raw) ↔ LiesIn root (Text.trim raw')) ∨
        ∃ climb, segments root ++ climb <+: segments (Text.trim raw) ∧
          walk (segments root ++ climb) = [] := by
  by_cases hsame : LiesIn root (Text.trim raw) ↔ LiesIn root (Text.trim raw')
  · exact iff_of_true (h.resolve_eq hroot hsame directory) (.inl hsame)
  · rw [(resolve_isAbsolute hroot raw directory).eq_iff (resolve_isAbsolute hroot raw' directory),
      segments_resolve hroot, segments_resolve hroot, or_iff_right hsame]
    by_cases hs : LiesIn root (Text.trim raw)
    · have ht : ¬ LiesIn root (Text.trim raw') := fun ht => hsame (iff_of_true hs ht)
      exact h.trim.reached_eq_iff hroot hs ht directory
    · have ht : LiesIn root (Text.trim raw') := by_contra fun ht => hsame (iff_of_false hs ht)
      rw [eq_comm, h.trim.segments_eq]
      exact h.trim.symm.reached_eq_iff hroot ht hs directory

/-- One spelling goes up from the root, and the other one from a second copy of it. Both are stopped
there. -/
theorem climb_slashes_same :
    IsAbsolute "/data" ∧ AlikeInSlashes " /data/..//gem " " //data///../gem " ∧
      ¬ (LiesIn "/data" (Text.trim " /data/..//gem ") ↔
        LiesIn "/data" (Text.trim " //data///../gem ")) ∧
      resolve " /data/..//gem " "/inn" "/data" = resolve " //data///../gem " "/inn" "/data" := by
  have hroot : IsAbsolute "/data" := ⟨segments "/data", by decide +kernel, by decide +kernel⟩
  have halike : AlikeInSlashes " /data/..//gem " " //data///../gem " := by decide +kernel
  have hclimb : segments "/data" ++ segments ".." <+: segments (Text.trim " /data/..//gem ") := by
    decide +kernel
  exact ⟨hroot, halike, by decide +kernel, (resolve_eq_resolve_iff hroot halike "/inn").2
    (.inr ⟨segments "..", hclimb, by decide +kernel⟩)⟩

/-- A second slash in front hides that the path starts with the root, which then stands in what it
is resolved to twice. -/
theorem gem_slashes_differ :
    IsAbsolute "/data" ∧ AlikeInSlashes "/data/gem" "//data/gem" ∧
      resolve "/data/gem" "/" "/data" = "/data/gem" ∧
      resolve "//data/gem" "/" "/data" = "/data/data/gem" ∧
      resolve "/data/gem" "/" "/data" ≠ resolve "//data/gem" "/" "/data" := by
  have hroot : IsAbsolute "/data" := ⟨segments "/data", by decide +kernel, by decide +kernel⟩
  have halike : AlikeInSlashes "/data/gem" "//data/gem" := by decide +kernel
  have hone : resolve "/data/gem" "/" "/data" = "/data/gem" := by decide +kernel
  have htwo : resolve "//data/gem" "/" "/data" = "/data/data/gem" := by decide +kernel
  rw [hone, htwo]
  exact ⟨hroot, halike, rfl, rfl, by decide +kernel⟩

end RandomTables.Path
