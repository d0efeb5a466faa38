import RandomTables.Proofs.Path.Walk

/-!
# Reduced paths

Every pass over a path leaves out code points and adds none, so passes come to an end before they are
used up, where one more pass changes nothing. In terms of segments a pass leaves out segments without
a say in where the path leads. A path that no pass changes consists of names, so what it comes to are
the names at the end of the walk along the path.
-/
namespace RandomTables.Path

/-! ## Passes come to an end -/

theorem dropHere_sublist (s : Text) : (dropHere s).Sublist s := by
  fun_induction dropHere s with
  | case1 rest ih => exact (ih.cons _).cons _ |>.cons_cons _
  | case2 c rest _ ih => exact ih.cons_cons c
  | case3 => exact .refl _

theorem dropFirstPair_sublist (s : Text) : (dropFirstPair s).Sublist s := by
  induction s with
  | nil => exact .refl _
  | cons c rest ih =>
    rw [dropFirstPair]
    split
    · have hrest : (fromSlash rest).Sublist rest := List.dropWhile_sublist _
      exact ((List.drop_sublist 3 _).trans hrest).cons c
    · exact ih.cons_cons c

theorem dropLeadingUp_sublist (s : Text) : (dropLeadingUp s).Sublist s := by
  unfold dropLeadingUp
  split
  · exact List.drop_sublist 3 s
  · exact .refl s

theorem pass_sublist (s : Text) : (pass s).Sublist s :=
  (dropLeadingUp_sublist _).trans ((dropFirstPair_sublist _).trans (dropHere_sublist s))

/-- A pass that changes a path makes it shorter. -/
theorem length_pass_lt {s : Text} (h : pass s ≠ s) : (pass s).length < s.length := by
  have hle := (pass_sublist s).length_le
  have hne : (pass s).length ≠ s.length := fun hlength => h ((pass_sublist s).eq_of_length hlength)
  omega

/-- With more passes than the path is long, one more pass changes nothing. -/
theorem pass_reduce {passes : Nat} {s : Text} (h : s.length < passes) :
    pass (reduce passes s) = reduce passes s := by
  induction passes generalizing s with
  | zero => omega
  | succ passes ih =>
    rw [reduce]
    by_cases hfixed : pass s = s
    · rw [if_pos hfixed, hfixed]
    · have hshorter := length_pass_lt hfixed
      rw [if_neg hfixed]
      exact ih (by omega)

theorem pass_normalize (s : Text) : pass (normalize s) = normalize s :=
  pass_reduce (Nat.lt_succ_self _)

/-! ## What a pass does to segments -/

/-- Leave out every `.` that stands behind something that is not left out. -/
def skipHere : List Segment → List Segment
  | [] => []
  | [segment] => if segment = here then [] else [segment]
  | segment :: next :: segs =>
    if segment = here then next :: skipHere segs else segment :: skipHere (next :: segs)

/-- Leave out the first name that a `..` follows, and that. -/
def skipPair : List Segment → List Segment
  | segment :: next :: segs =>
    if isProper segment ∧ next = up then segs else segment :: skipPair (next :: segs)
  | segs => segs

/-- Leave out a `..` in front. -/
def skipUp : List Segment → List Segment
  | segment :: segs => if segment = up then segs else segment :: segs
  | [] => []

variable {segs : List Segment}

theorem closed_cons (segment : Segment) (segs : List Segment) :
    closed (segment :: segs) = .char '/' :: (segment ++ closed segs) := by
  simp [closed]

theorem isProper_iff {segment : Segment} :
    isProper segment ↔ segment ≠ [] ∧ segment ≠ here ∧ segment ≠ up := by
  simp [isProper, and_assoc]

theorem dropHere_append {piece : Text} (h : .char '/' ∉ piece) (t : Text) :
    dropHere (piece ++ t) = piece ++ dropHere t := by
  induction piece with
  | nil => rfl
  | cons c piece ih =>
    have hc : c ≠ .char '/' := (List.ne_of_not_mem_cons h).symm
    rw [List.cons_append, dropHere, ih (List.not_mem_of_not_mem_cons h), List.cons_append]
    intro rest hslash
    exact absurd hslash hc

/-- A segment other than `.` stays where it is. -/
theorem dropHere_solid {segment : Segment} (h : IsSolid segment) (hne : segment ≠ here)
    (segs : List Segment) :
    dropHere (closed (segment :: segs)) = .char '/' :: (segment ++ dropHere (closed segs)) := by
  rw [closed_cons, dropHere, dropHere_append h.noSlash]
  -- The other equation of the definition is about a point between two slashes.
  intro rest _ hrest
  obtain ⟨c, more, rfl⟩ := List.exists_cons_of_ne_nil h.ne_nil
  obtain ⟨rfl, hmore⟩ := List.cons.inj hrest
  cases more with
  | nil => exact hne rfl
  | cons d more =>
    obtain ⟨rfl, _⟩ := List.cons.inj hmore
    exact h.noSlash (by simp)

theorem dropHere_closed (h : ∀ segment ∈ segs, IsSolid segment) :
    dropHere (closed segs) = closed (skipHere segs) := by
  fun_induction skipHere segs with
  | case1 => rfl
  | case2 => rfl
  | case3 segment hne =>
    rw [dropHere_solid (h segment (List.mem_cons_self ..)) hne, closed_cons]
    rfl
  | case4 next segs ih =>
    have hnext : IsSolid next := h next (by simp)
    have hrest := ih fun other hother => h other (by simp [hother])
    have hclosed : closed (here :: next :: segs) =
        .char '/' :: .char '.' :: .char '/' :: (next ++ closed segs) := by
      rw [closed_cons, closed_cons]
      rfl
    rw [hclosed, dropHere, dropHere_append hnext.noSlash, hrest, closed_cons]
  | case5 segment next segs hne ih =>
    have hrest := ih fun other hother => h other (List.mem_cons_of_mem _ hother)
    rw [dropHere_solid (h segment (List.mem_cons_self ..)) hne, hrest, ← closed_cons]

theorem upToSlash_append {piece : Text} (h : .char '/' ∉ piece) (segs : List Segment) :
    upToSlash (piece ++ closed segs) = piece ∧ fromSlash (piece ++ closed segs) = closed segs := by
  obtain ⟨t, ht⟩ := exists_closed_eq segs
  rw [ht]
  refine Text.takeWhile_append (fun c hc => ?_) (by simp)
  rw [decide_eq_true_eq]
  rintro rfl
  exact h hc

theorem dropFirstPair_append {piece : Text} (h : .char '/' ∉ piece) (t : Text) :
    dropFirstPair (piece ++ t) = piece ++ dropFirstPair t := by
  induction piece with
  | nil => rfl
  | cons c piece ih =>
    have hc : c ≠ .char '/' := (List.ne_of_not_mem_cons h).symm
    rw [List.cons_append, dropFirstPair, if_neg (fun hslash => hc hslash.1),
      ih (List.not_mem_of_not_mem_cons h), List.cons_append]

/-- A path goes up right away exactly if `..` is its first segment. -/
theorem startsUp_closed_iff (h : ∀ segment ∈ segs, IsSolid segment) :
    startsUp (closed segs) ↔ ∃ rest, segs = up :: rest := by
  constructor
  · intro hstarts
    obtain ⟨t, ht⟩ := List.isPrefixOf_iff_prefix.1 hstarts
    have hup : IsSolid up := by decide
    have hclosed : closed segs = .char '/' :: (up ++ .char '/' :: t) := ht.symm
    have hsegs := congrArg segments hclosed
    rw [segments_closed h, segments_slash, segments_append_slash, segments_of_solid hup] at hsegs
    exact ⟨_, hsegs⟩
  · rintro ⟨rest, rfl⟩
    obtain ⟨t, ht⟩ := exists_closed_eq rest
    rw [closed_cons, ht]
    rfl

theorem drop_closed_up (segs : List Segment) : (closed (up :: segs)).drop 3 = closed segs := by
  rw [closed_cons]
  rfl

theorem dropFirstPair_solid {segment : Segment} (h : IsSolid segment) (segs : List Segment) :
    dropFirstPair (closed (segment :: segs)) =
      if isProper segment ∧ startsUp (closed segs) then (closed segs).drop 3
      else .char '/' :: (segment ++ dropFirstPair (closed segs)) := by
  obtain ⟨hname, hafter⟩ := upToSlash_append h.noSlash segs
  rw [closed_cons, dropFirstPair, hname, hafter, dropFirstPair_append h.noSlash]
  simp only [true_and]

theorem dropFirstPair_closed (h : ∀ segment ∈ segs, IsSolid segment) :
    dropFirstPair (closed segs) = closed (skipPair segs) := by
  fun_induction skipPair segs with
  | case1 segment next segs hpair =>
    obtain ⟨hproper, rfl⟩ := hpair
    have hstarts : startsUp (closed (up :: segs)) := by
      refine (startsUp_closed_iff fun other hother => ?_).2 ⟨segs, rfl⟩
      exact h other (List.mem_cons_of_mem _ hother)
    rw [dropFirstPair_solid (h segment (List.mem_cons_self ..)), if_pos ⟨hproper, hstarts⟩,
      drop_closed_up]
  | case2 segment next segs hpair ih =>
    have hrest : ∀ other ∈ next :: segs, IsSolid other :=
      fun other hother => h other (List.mem_cons_of_mem _ hother)
    have hno : ¬(isProper segment ∧ startsUp (closed (next :: segs))) := by
      rintro ⟨hproper, hstarts⟩
      obtain ⟨rest, hup⟩ := (startsUp_closed_iff hrest).1 hstarts
      exact hpair ⟨hproper, (List.cons.inj hup).1⟩
    rw [dropFirstPair_solid (h segment (List.mem_cons_self ..)), if_neg hno, ih hrest,
      ← closed_cons]
  | case3 segs hshort =>
    cases segs with
    | nil => rfl
    | cons segment segs =>
      cases segs with
      | cons next segs => exact absurd rfl (hshort segment next segs)
      | nil =>
        have hno : ¬(isProper segment ∧ startsUp (closed [])) := fun hpair => by
          cases hpair.2
        rw [dropFirstPair_solid (h segment (List.mem_cons_self ..)), if_neg hno, closed_cons]
        rfl

theorem dropLeadingUp_closed (h : ∀ segment ∈ segs, IsSolid segment) :
    dropLeadingUp (closed segs) = closed (skipUp segs) := by
  have hstarts := startsUp_closed_iff h
  unfold dropLeadingUp
  cases segs with
  | nil => rfl
  | cons segment segs =>
    by_cases hup : segment = up
    · subst hup
      rw [if_pos (hstarts.2 ⟨segs, rfl⟩), drop_closed_up, skipUp, if_pos rfl]
    · have hno : ¬startsUp (closed (segment :: segs)) := fun hyes => by
        obtain ⟨rest, hrest⟩ := hstarts.1 hyes
        exact hup (List.cons.inj hrest).1
      rw [if_neg hno, skipUp, if_neg hup]

/-- What one pass does. -/
def skip (segs : List Segment) : List Segment := skipUp (skipPair (skipHere segs))

theorem skipHere_sublist (segs : List Segment) : (skipHere segs).Sublist segs := by
  fun_induction skipHere segs with
  | case1 => exact .refl _
  | case2 => exact List.nil_sublist _
  | case3 => exact .refl _
  | case4 next segs ih => exact (ih.cons_cons next).cons here
  | case5 segment next segs _ ih => exact ih.cons_cons segment

theorem skipPair_sublist (segs : List Segment) : (skipPair segs).Sublist segs := by
  fun_induction skipPair segs with
  | case1 segment next segs _ => exact ((List.Sublist.refl segs).cons next).cons segment
  | case2 segment next segs _ ih => exact ih.cons_cons segment
  | case3 => exact .refl _

theorem skipUp_sublist (segs : List Segment) : (skipUp segs).Sublist segs := by
  fun_cases skipUp segs with
  | case1 segs => exact (List.Sublist.refl segs).cons up
  | case2 => exact .refl _
  | case3 => exact .refl _

theorem skip_sublist (segs : List Segment) : (skip segs).Sublist segs :=
  (skipUp_sublist _).trans ((skipPair_sublist _).trans (skipHere_sublist segs))

theorem pass_closed (h : ∀ segment ∈ segs, IsSolid segment) :
    pass (closed segs) = closed (skip segs) := by
  have hhere : ∀ segment ∈ skipHere segs, IsSolid segment :=
    fun other hother => h other ((skipHere_sublist segs).subset hother)
  have hpair : ∀ segment ∈ skipPair (skipHere segs), IsSolid segment :=
    fun other hother => hhere other ((skipPair_sublist _).subset hother)
  rw [pass, dropHere_closed h, dropFirstPair_closed hhere, dropLeadingUp_closed hpair, skip]

/-! ## Where a reduced path leads -/

theorem foldl_skipHere (segs kept : List Segment) :
    (skipHere segs).foldl step kept = segs.foldl step kept := by
  fun_induction skipHere segs generalizing kept with
  | case1 => rfl
  | case2 => simp
  | case3 => rfl
  | case4 next segs ih => simp [ih]
  | case5 segment next segs _ ih => exact ih _

theorem foldl_skipPair (h : ∀ segment ∈ segs, IsSolid segment) (kept : List Segment) :
    (skipPair segs).foldl step kept = segs.foldl step kept := by
  fun_induction skipPair segs generalizing kept with
  | case1 segment next segs hpair =>
    obtain ⟨hproper, rfl⟩ := hpair
    obtain ⟨_, hhere, hup⟩ := isProper_iff.1 hproper
    have hname : IsName segment := ⟨h segment (List.mem_cons_self ..), hhere, hup⟩
    rw [List.foldl_cons, List.foldl_cons, step_name hname, step_up, List.dropLast_concat]
  | case2 segment next segs _ ih =>
    exact ih (fun other hother => h other (List.mem_cons_of_mem _ hother)) _
  | case3 => rfl

/-- A pass leaves out nothing that has a say in where the path leads. -/
theorem walk_skip (h : ∀ segment ∈ segs, IsSolid segment) : walk (skip segs) = walk segs := by
  have hup : ∀ segs, walk (skipUp segs) = walk segs := by
    intro segs
    fun_cases skipUp segs with
    | case1 segs => simp [walk]
    | case2 => rfl
    | case3 => rfl
  have hhere : ∀ segment ∈ skipHere segs, IsSolid segment :=
    fun other hother => h other ((skipHere_sublist segs).subset hother)
  rw [skip, hup, walk, foldl_skipPair hhere, foldl_skipHere, ← walk]

/-! ## Paths that no pass changes -/

theorem here_not_mem_of_skipHere (h : skipHere segs = segs) : here ∉ segs := by
  fun_induction skipHere segs with
  | case1 => exact List.not_mem_nil
  | case2 => cases h
  | case3 segment hne =>
    intro hmem
    exact hne (List.mem_singleton.1 hmem).symm
  | case4 next segs _ =>
    -- What lost a segment is shorter.
    have hlength := congrArg List.length h
    have hle := (skipHere_sublist segs).length_le
    simp only [List.length_cons] at hlength
    omega
  | case5 segment next segs hne ih =>
    have hrest := ih (List.cons.inj h).2
    intro hmem
    rcases List.mem_cons.1 hmem with hhere | hmem
    · exact hne hhere.symm
    · exact hrest hmem

/-- Where no name is followed by `..`, all of these come first. -/
theorem up_not_mem_of_skipPair (hsolid : ∀ segment ∈ segs, IsSolid segment) (hhere : here ∉ segs)
    (h : skipPair segs = segs) (hhead : ∀ segment ∈ segs.head?, segment ≠ up) : up ∉ segs := by
  fun_induction skipPair segs with
  | case1 segment next segs _ =>
    have hlength := congrArg List.length h
    simp only [List.length_cons] at hlength
    omega
  | case2 segment next segs hpair ih =>
    have hup : segment ≠ up := hhead segment rfl
    have hproper : isProper segment := isProper_iff.2
      ⟨(hsolid segment (List.mem_cons_self ..)).ne_nil, (List.ne_of_not_mem_cons hhere).symm, hup⟩
    have hnext : next ≠ up := fun hnext => hpair ⟨hproper, hnext⟩
    have hrest := ih (fun other hother => hsolid other (List.mem_cons_of_mem _ hother))
      (List.not_mem_of_not_mem_cons hhere) (List.cons.inj h).2
      (fun other hother => Option.some.inj hother ▸ hnext)
    intro hmem
    rcases List.mem_cons.1 hmem with hfirst | hmem
    · exact hup hfirst.symm
    · exact hrest hmem
  | case3 segs hshort =>
    cases segs with
    | nil => exact List.not_mem_nil
    | cons segment segs =>
      cases segs with
      | cons next segs => exact absurd rfl (hshort segment next segs)
      | nil =>
        intro hmem
        exact hhead segment rfl (List.mem_singleton.1 hmem).symm

/-- A path that a pass leaves as it is has names only. -/
theorem names_of_skip (hsolid : ∀ segment ∈ segs, IsSolid segment) (h : skip segs = segs) :
    ∀ segment ∈ segs, IsName segment := by
  -- None of the three steps leaves anything out, since nothing is left out in the end.
  have hle : segs.length ≤ (skipPair (skipHere segs)).length := by
    have hup := (skipUp_sublist (skipPair (skipHere segs))).length_le
    rwa [← skip, h] at hup
  have hskipHere : skipHere segs = segs :=
    (skipHere_sublist segs).eq_of_length_le (hle.trans (skipPair_sublist _).length_le)
  rw [hskipHere] at hle
  have hskipPair : skipPair segs = segs := (skipPair_sublist segs).eq_of_length_le hle
  have hskipUp : skipUp segs = segs := by rwa [skip, hskipHere, hskipPair] at h
  have hhead : ∀ segment ∈ segs.head?, segment ≠ up := by
    rintro segment hsegment rfl
    obtain ⟨rest, rfl⟩ := List.head?_eq_some_iff.1 hsegment
    have hlength := congrArg List.length hskipUp
    simp [skipUp] at hlength
  have hhere := here_not_mem_of_skipHere hskipHere
  have hup := up_not_mem_of_skipPair hsolid hhere hskipPair hhead
  intro segment hmem
  refine ⟨hsolid segment hmem, ?_, ?_⟩
  · rintro rfl
    exact hhere hmem
  · rintro rfl
    exact hup hmem

/-- Passes leave out nothing that has a say in where the path leads. -/
theorem exists_reduce_closed (passes : Nat) (h : ∀ segment ∈ segs, IsSolid segment) :
    ∃ left, (∀ segment ∈ left, IsSolid segment) ∧ reduce passes (closed segs) = closed left ∧
      walk left = walk segs := by
  induction passes generalizing segs with
  | zero => exact ⟨segs, h, rfl, rfl⟩
  | succ passes ih =>
    rw [reduce]
    by_cases hfixed : pass (closed segs) = closed segs
    · exact ⟨segs, h, if_pos hfixed, rfl⟩
    · have hskip : ∀ segment ∈ skip segs, IsSolid segment :=
        fun segment hmem => h segment ((skip_sublist segs).subset hmem)
      obtain ⟨left, hleft, hreduce, hwalk⟩ := ih hskip
      refine ⟨left, hleft, ?_, hwalk.trans (walk_skip h)⟩
      rw [if_neg hfixed, pass_closed h, hreduce]

/-- Normalizing a path writes down where it leads, with a slash at the end. -/
theorem normalize_slash (s : Text) :
    normalize (.char '/' :: s) = closed (walk (segments s)) := by
  have hsolid : ∀ segment ∈ segments s, IsSolid segment := fun _ h => solid_of_mem_segments h
  obtain ⟨left, hleft, hreduce, hwalk⟩ :=
    exists_reduce_closed ((closed (segments s)).length + 1) hsolid
  have hnormal : normalize (.char '/' :: s) = closed left := by
    rw [← hreduce, ← squeeze_closed]
    rfl
  have hfixed := pass_normalize (.char '/' :: s)
  rw [hnormal, pass_closed hleft] at hfixed
  have hskipSolid : ∀ segment ∈ skip left, IsSolid segment :=
    fun segment hmem => hleft segment ((skip_sublist left).subset hmem)
  have hskip : skip left = left := by
    rw [← segments_closed hskipSolid, hfixed, segments_closed hleft]
  rw [hnormal, ← hwalk, walk_of_names (names_of_skip hleft hskip)]

end RandomTables.Path
