import RandomTables.Proofs.Path.Segments

/-!
# Walking along segments

A path is walked from the root, segment by segment: a name goes one level down, `..` one level up as
long as there is a level above, and anything else stays. What is left are names only, and a walk
along names leads along all of them.
-/
namespace RandomTables.Path

/-- The segment goes one level down. -/
structure IsName (segment : Segment) : Prop extends IsSolid segment where
  ne_here : segment ≠ here
  ne_up : segment ≠ up

instance (segment : Segment) : Decidable (IsName segment) :=
  decidable_of_iff (IsSolid segment ∧ segment ≠ here ∧ segment ≠ up)
    ⟨fun h => ⟨h.1, h.2.1, h.2.2⟩, fun h => ⟨h.toIsSolid, h.ne_here, h.ne_up⟩⟩

/-- The names that lead from the root to a place, after one more segment. -/
def step (kept : List Segment) (segment : Segment) : List Segment :=
  if segment = [] ∨ segment = here then kept
  else if segment = up then kept.dropLast
  else kept ++ [segment]

/-- The names that lead from the root to where the segments do. -/
def walk (segs : List Segment) : List Segment := segs.foldl step []

variable {segs kept : List Segment} {segment : Segment}

@[simp] theorem step_here (kept : List Segment) : step kept here = kept := by simp [step]

@[simp] theorem step_up (kept : List Segment) : step kept up = kept.dropLast := by
  simp [step, up, here]

theorem step_name (h : IsName segment) (kept : List Segment) :
    step kept segment = kept ++ [segment] := by
  simp [step, h.ne_nil, h.ne_here, h.ne_up]

/-- Names are kept as they are. -/
theorem foldl_step_of_names (h : ∀ segment ∈ segs, IsName segment) (kept : List Segment) :
    segs.foldl step kept = kept ++ segs := by
  induction segs generalizing kept with
  | nil => simp
  | cons segment segs ih =>
    have hrest := ih fun other hother => h other (List.mem_cons_of_mem _ hother)
    rw [List.foldl_cons, step_name (h segment (List.mem_cons_self ..)), hrest]
    simp

theorem walk_of_names (h : ∀ segment ∈ segs, IsName segment) : walk segs = segs :=
  foldl_step_of_names h []

theorem name_of_mem_step (hsegment : IsSolid segment) (hkept : ∀ name ∈ kept, IsName name) :
    ∀ name ∈ step kept segment, IsName name := by
  intro name hname
  unfold step at hname
  split at hname
  · exact hkept name hname
  · next hstay =>
    split at hname
    · exact hkept name (List.dropLast_subset _ hname)
    · next hup =>
      rcases List.mem_append.1 hname with hold | hnew
      · exact hkept name hold
      · obtain rfl := List.mem_singleton.1 hnew
        exact ⟨hsegment, fun hhere => hstay (.inr hhere), hup⟩

theorem name_of_mem_foldl_step (h : ∀ segment ∈ segs, IsSolid segment)
    (hkept : ∀ name ∈ kept, IsName name) : ∀ name ∈ segs.foldl step kept, IsName name :=
  List.foldlRecOn (motive := fun kept => ∀ name ∈ kept, IsName name) segs step hkept
    fun _ hkept segment hsegment => name_of_mem_step (h segment hsegment) hkept

/-- Only names are left at the end of a walk. -/
theorem name_of_mem_walk (h : ∀ segment ∈ segs, IsSolid segment) :
    ∀ name ∈ walk segs, IsName name :=
  name_of_mem_foldl_step h (List.forall_mem_nil _)

/-! ## Walks from different places -/

variable {above : List Segment}

/-- Below some levels a segment leads to where it does without them, and as many of them are above
as before; only where there was nothing left below them is the last of them taken off. -/
theorem exists_step_append (habove : above ≠ []) (kept : List Segment) (segment : Segment) :
    ∃ left, step (above ++ kept) segment = left ++ step kept segment ∧
      (left = [] → step kept segment = []) := by
  by_cases hstay : segment = [] ∨ segment = here
  · exact ⟨above, by simp [step, hstay], fun hnil => absurd hnil habove⟩
  · by_cases hup : segment = up
    · subst hup
      by_cases hkept : kept = []
      · exact ⟨above.dropLast, by simp [hkept], fun _ => by simp [hkept]⟩
      · exact ⟨above, by simp [List.dropLast_append_of_ne_nil hkept],
          fun hnil => absurd hnil habove⟩
    · exact ⟨above, by simp [step, hstay, hup], fun hnil => absurd hnil habove⟩

/-- A walk from some levels further down ends elsewhere than one without them, unless it gets all
the way up on its way: from there on the two are the same. -/
theorem foldl_step_append_eq_iff (habove : above ≠ []) (kept segs : List Segment) :
    segs.foldl step (above ++ kept) = segs.foldl step kept ↔
      ∃ climb, climb <+: segs ∧ climb.foldl step (above ++ kept) = [] := by
  induction segs generalizing above kept with
  | nil => simp [habove]
  | cons segment segs ih =>
    obtain ⟨left, hstep, htop⟩ := exists_step_append habove kept segment
    have hclimb : (∃ climb, climb <+: segment :: segs ∧ climb.foldl step (above ++ kept) = []) ↔
        ∃ climb, climb <+: segs ∧ climb.foldl step (left ++ step kept segment) = [] := by
      simp only [List.prefix_cons_iff, ← hstep]
      constructor
      · rintro ⟨_, rfl | ⟨climb, rfl, hmore⟩, hend⟩
        · exact absurd hend (by simp [habove])
        · exact ⟨climb, hmore, hend⟩
      · rintro ⟨climb, hmore, hend⟩
        exact ⟨segment :: climb, .inr ⟨climb, rfl, hmore⟩, hend⟩
    rw [List.foldl_cons, List.foldl_cons, hstep, hclimb]
    by_cases hleft : left = []
    · have hend : [].foldl step (left ++ step kept segment) = [] := by simp [hleft, htop hleft]
      exact iff_of_true (by rw [hleft, List.nil_append]) ⟨[], List.nil_prefix, hend⟩
    · exact ih hleft (step kept segment)

/-! ## How much is left -/

/-- The number of code points in some segments. -/
def weight (segs : List Segment) : Nat := segs.flatten.length

@[simp] theorem weight_append (segs more : List Segment) :
    weight (segs ++ more) = weight segs + weight more := by
  simp [weight]

@[simp] theorem weight_singleton (segment : Segment) : weight [segment] = segment.length := by
  simp [weight]

theorem weight_dropLast_le (segs : List Segment) : weight segs.dropLast ≤ weight segs := by
  rcases List.eq_nil_or_concat segs with rfl | ⟨init, last, rfl⟩
  · rfl
  · simp

theorem weight_step_le (kept : List Segment) (segment : Segment) :
    weight (step kept segment) ≤ weight kept + segment.length := by
  have hdrop := weight_dropLast_le kept
  unfold step
  split
  · omega
  · split
    · omega
    · simp

/-- A walk makes nothing new. -/
theorem weight_walk_le (segs : List Segment) : weight (walk segs) ≤ weight segs := by
  have hall : ∀ (segs kept : List Segment),
      weight (segs.foldl step kept) ≤ weight kept + weight segs := by
    intro segs
    induction segs with
    | nil => simp
    | cons segment segs ih =>
      intro kept
      have hrest := ih (step kept segment)
      have hstep := weight_step_le kept segment
      have hcons : weight (segment :: segs) = segment.length + weight segs := by simp [weight]
      rw [List.foldl_cons]
      omega
  simpa [weight, walk] using hall segs []

end RandomTables.Path
