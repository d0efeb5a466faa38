import Mathlib.Data.List.TakeWhile
import RandomTables.Proofs.Text.Stretch

/-!
# Cutting and trimming what was put together

A text that was put together of pieces with separators between them is cut into these pieces again
if no piece holds the separator. Trimming leaves a text alone exactly if it neither starts nor ends
with a blank.
-/
namespace RandomTables.Text
variable {sep : CodePoint} {s t piece : Text} {pieces : List Text}

/-! ## Separators -/

theorem cut_of_not_mem (h : sep ∉ s) : cut sep s = (s, none) := by
  induction s with
  | nil => rfl
  | cons c s ih =>
    have hc : c ≠ sep := (List.ne_of_not_mem_cons h).symm
    rw [cut, if_neg hc, ih (List.not_mem_of_not_mem_cons h)]

theorem cut_append_cons (h : sep ∉ s) (t : Text) : cut sep (s ++ sep :: t) = (s, some t) := by
  induction s with
  | nil => simp [cut]
  | cons c s ih =>
    have hc : c ≠ sep := (List.ne_of_not_mem_cons h).symm
    rw [List.cons_append, cut, if_neg hc, ih (List.not_mem_of_not_mem_cons h)]

theorem split_of_not_mem (h : sep ∉ s) : split sep s = [s] := by
  induction s with
  | nil => rfl
  | cons c s ih =>
    have hc : c ≠ sep := (List.ne_of_not_mem_cons h).symm
    rw [split, if_neg hc, ih (List.not_mem_of_not_mem_cons h)]

theorem split_append_cons (h : sep ∉ s) (t : Text) :
    split sep (s ++ sep :: t) = s :: split sep t := by
  induction s with
  | nil => simp [split]
  | cons c s ih =>
    have hc : c ≠ sep := (List.ne_of_not_mem_cons h).symm
    rw [List.cons_append, split, if_neg hc, ih (List.not_mem_of_not_mem_cons h)]

/-- A text is a piece without separators, or such a piece, a separator and a text. -/
@[elab_as_elim]
theorem separator_induction {P : Text → Prop} (sep : CodePoint)
    (single : ∀ piece, sep ∉ piece → P piece)
    (more : ∀ piece rest, sep ∉ piece → P rest → P (piece ++ sep :: rest)) (s : Text) : P s := by
  -- What was read of the first piece is kept in front of the text.
  have hread : ∀ s piece : Text, sep ∉ piece → P (piece ++ s) := by
    intro s
    induction s with
    | nil =>
      intro piece hpiece
      simpa using single piece hpiece
    | cons c s ih =>
      intro piece hpiece
      by_cases hc : c = sep
      · subst hc
        have hnil : c ∉ ([] : Text) := List.not_mem_nil
        exact more piece s hpiece (ih [] hnil)
      · have hlonger : sep ∉ piece ++ [c] := by
          simp [hpiece, Ne.symm hc]
        simpa using ih (piece ++ [c]) hlonger
  have hnil : sep ∉ ([] : Text) := List.not_mem_nil
  exact hread s [] hnil

theorem not_mem_of_mem_split (h : piece ∈ split sep s) : sep ∉ piece := by
  induction s using separator_induction sep with
  | single first hfirst =>
    rw [split_of_not_mem hfirst] at h
    obtain rfl := List.mem_singleton.1 h
    exact hfirst
  | more first rest hfirst ih =>
    rw [split_append_cons hfirst] at h
    rcases List.mem_cons.1 h with rfl | hrest
    · exact hfirst
    · exact ih hrest

theorem joinWith_cons_cons (sep : CodePoint) (first second : Text) (rest : List Text) :
    joinWith [sep] (first :: second :: rest) = first ++ sep :: joinWith [sep] (second :: rest) :=
  List.append_assoc first [sep] _

/-- Pieces that were joined with a separator that none of them holds come apart again. -/
theorem split_joinWith (h : ∀ piece ∈ pieces, sep ∉ piece) (hne : pieces ≠ []) :
    split sep (joinWith [sep] pieces) = pieces := by
  induction pieces with
  | nil => exact absurd rfl hne
  | cons first rest ih =>
    have hfirst := h first (List.mem_cons_self ..)
    cases rest with
    | nil => exact split_of_not_mem hfirst
    | cons second rest =>
      have hrest := ih (fun piece hpiece => h piece (List.mem_cons_of_mem _ hpiece)) nofun
      rw [joinWith_cons_cons, split_append_cons hfirst, hrest]

/-- Splitting starts with what stands in front of the first separator. -/
theorem exists_split_eq (sep : CodePoint) (s : Text) :
    ∃ rest, split sep s = (cut sep s).1 :: rest := by
  induction s using separator_induction sep with
  | single piece h => exact ⟨[], by rw [split_of_not_mem h, cut_of_not_mem h]⟩
  | more piece rest h => exact ⟨_, by rw [split_append_cons h, cut_append_cons h]⟩

/-- Besides separators, a text that was put together has what its pieces have. -/
theorem mem_joinWith_iff {between : Text} {c : CodePoint} (hbetween : c ∉ between) :
    c ∈ joinWith between pieces ↔ ∃ piece ∈ pieces, c ∈ piece := by
  fun_induction joinWith between pieces with
  | case1 => simp
  | case2 piece => simp
  | case3 piece pieces hne ih => simp [ih, hbetween]

/-! ## Blanks at the ends -/

/-- The text neither starts nor ends with a blank. -/
structure Trimmed (s : Text) : Prop where
  head : ∀ c ∈ s.head?, isBlank c = false
  last : ∀ c ∈ s.getLast?, isBlank c = false

theorem trimStart_of_head (h : ∀ c ∈ s.head?, isBlank c = false) : trimStart s = s := by
  cases s with
  | nil => rfl
  | cons c s => exact trimStart_cons_of_not_isBlank (h c rfl)

/-- Behind a trimmed text there is nothing to take off. -/
theorem Trimmed.trimStart_reverse (h : Trimmed s) : trimStart s.reverse = s.reverse :=
  trimStart_of_head fun c hc => h.last c (by rwa [List.head?_reverse] at hc)

theorem Trimmed.trimEnd (h : Trimmed s) : trimEnd s = s :=
  (congrArg List.reverse h.trimStart_reverse).trans (List.reverse_reverse s)

theorem trim_of_trimmed (h : Trimmed s) : trim s = s := by
  rw [trim, trimStart_of_head h.head, h.trimEnd]

theorem trimmed_of_trim (h : trim s = s) : Trimmed s := by
  -- Nothing is taken off at the start, because what is left after both ends is the whole text.
  have hstart : trimStart s = s := by
    have hle := ( trimEnd_prefix (trimStart s)).length_le
    change (trim s).length ≤ _ at hle
    rw [h] at hle
    exact (trimStart_suffix s).eq_of_length_le hle
  have hend : trimStart s.reverse = s.reverse := by
    have hreverse : (trimStart (trimStart s).reverse).reverse = s := h
    rw [hstart] at hreverse
    exact List.reverse_eq_iff.1 hreverse
  refine ⟨fun c hc => ?_, fun c hc => ?_⟩
  · obtain ⟨rest, rfl⟩ := List.head?_eq_some_iff.1 hc
    exact isBlank_of_trimStart_eq_cons hstart
  · rw [← List.head?_reverse] at hc
    obtain ⟨rest, hrest⟩ := List.head?_eq_some_iff.1 hc
    rw [hrest] at hend
    exact isBlank_of_trimStart_eq_cons hend

/-- Only what follows the last character that is no blank can be taken off at the end. -/
theorem trimEnd_append_cons {c : CodePoint} (hc : isBlank c = false) (s t : Text) :
    trimEnd (s ++ c :: t) = s ++ c :: trimEnd t := by
  have hreverse : (s ++ c :: t).reverse = t.reverse ++ c :: s.reverse := by simp
  rw [trimEnd, trimEnd, hreverse, List.dropWhile_append]
  split
  · next hblank =>
    rw [List.isEmpty_iff.1 hblank, List.dropWhile_cons_of_neg (by simp [hc])]
    simp
  · simp

theorem length_trimEnd_lt (h : trimEnd s ≠ s) : (trimEnd s).length < s.length := by
  have hshort := trimEnd_prefix s
  have hle := hshort.length_le
  have hne : (trimEnd s).length ≠ s.length := fun heq => h (hshort.eq_of_length heq)
  omega

/-- A text with something other than a blank in it is trimmed if its two ends are. -/
theorem trimmed_append_cons {c : CodePoint} (hne : s ≠ [])
    (hhead : ∀ d ∈ s.head?, isBlank d = false) (hc : isBlank c = false)
    (hlast : ∀ d ∈ t.getLast?, isBlank d = false) : Trimmed (s ++ c :: t) := by
  refine ⟨?_, ?_⟩
  · obtain ⟨d, rest, rfl⟩ := List.exists_cons_of_ne_nil hne
    exact hhead
  · intro d hd
    rw [List.getLast?_append, List.getLast?_cons, Option.some_or] at hd
    obtain rfl := Option.some.inj hd
    cases hend : t.getLast? with
    | none => exact hc
    | some d => exact hlast d hend

/-- Trimmed pieces that are not empty make a trimmed text. -/
theorem trimmed_joinWith (hsep : isBlank sep = false)
    (h : ∀ piece ∈ pieces, piece ≠ [] ∧ Trimmed piece) : Trimmed (joinWith [sep] pieces) := by
  induction pieces with
  | nil => exact trimmed_of_trim rfl
  | cons first rest ih =>
    obtain ⟨⟨hne, hfirst⟩, hrest⟩ := List.forall_mem_cons.1 h
    cases rest with
    | nil => exact hfirst
    | cons second rest =>
      rw [joinWith_cons_cons]
      exact trimmed_append_cons hne hfirst.head hsep (ih hrest).last

/-- A blank behind a trimmed text is trimmed off. -/
theorem trim_append_blank {c : CodePoint} (h : Trimmed s) (hne : s ≠ []) (hc : isBlank c) :
    trim (s ++ [c]) = s := by
  have hstart : trimStart (s ++ [c]) = s ++ [c] := by
    obtain ⟨d, rest, rfl⟩ := List.exists_cons_of_ne_nil hne
    exact trimStart_cons_of_not_isBlank (h.head d rfl)
  rw [trim, hstart]
  change (trimStart (s ++ [c]).reverse).reverse = s
  have hblank : allBlank [c] := allBlank_iff.2 fun d hd => List.mem_singleton.1 hd ▸ hc
  rw [List.reverse_append, List.reverse_singleton, trimStart_append hblank,
    h.trimStart_reverse, List.reverse_reverse]

/-- A text that starts with no blank starts alike when it is trimmed. -/
theorem exists_trim_cons {c : CodePoint} (h : isBlank c = false) (s : Text) :
    ∃ t, trim (c :: s) = c :: t := by
  rw [trim, trimStart_cons_of_not_isBlank h]
  cases htrim : trimEnd (c :: s) with
  | nil =>
    have hall := List.dropWhile_eq_nil_iff.1 (List.reverse_eq_nil_iff.1 htrim)
    have hblank := hall c (List.mem_reverse.2 (List.mem_cons_self ..))
    rw [h] at hblank
    cases hblank
  | cons d t =>
    have hprefix := trimEnd_prefix (c :: s)
    rw [htrim] at hprefix
    obtain ⟨rfl, _⟩ := List.cons_prefix_cons.1 hprefix
    exact ⟨t, rfl⟩

/-! ## Texts that are not blank -/

theorem Trimmed.allBlank_eq_false (h : Trimmed s) (hne : s ≠ []) : allBlank s = false := by
  cases s with
  | nil => exact absurd rfl hne
  | cons c s => rw [allBlank, List.all_cons, h.head c rfl, Bool.false_and]

theorem exists_trimStart_eq_cons (h : allBlank s = false) :
    ∃ c rest, trimStart s = c :: rest ∧ isBlank c = false := by
  cases hstart : trimStart s with
  | nil =>
    obtain ⟨ws, hws, hs⟩ := exists_allBlank_append s
    rw [hstart, List.append_nil] at hs
    rw [hs, hws] at h
    cases h
  | cons c rest => exact ⟨c, rest, rfl, isBlank_of_trimStart_eq_cons hstart⟩

/-- In front of a text that is not blank only its own blanks are taken off. -/
theorem trimStart_append_of_filled (h : allBlank s = false) (t : Text) :
    trimStart (s ++ t) = trimStart s ++ t := by
  obtain ⟨ws, hws, hs⟩ := exists_allBlank_append s
  obtain ⟨c, rest, hstart, hc⟩ := exists_trimStart_eq_cons h
  rw [hstart] at hs ⊢
  rw [hs, List.append_assoc, List.cons_append]
  exact trimStart_append_cons hws hc _

theorem trim_ne_nil (h : allBlank s = false) : trim s ≠ [] := by
  obtain ⟨c, rest, hstart, hc⟩ := exists_trimStart_eq_cons h
  obtain ⟨t, ht⟩ := exists_trim_cons hc rest
  rw [← hstart, trim, trimStart_trimStart] at ht
  rw [trim, ht]
  exact List.cons_ne_nil c t

end RandomTables.Text
