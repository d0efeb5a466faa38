import RandomTables.IndexPath.Basic
import RandomTables.Proofs.Text.Numeral
import RandomTables.Proofs.Text.Pieces

/-!
# Index paths as text

An index path is written as a list of numbers between brackets. Whoever reads such a list takes the
brackets off, cuts at the commas and reads each number with the blank in front of it. So the path
that was written is read again.
-/
namespace RandomTables

namespace Text
variable {s : Text} {c : CodePoint} {n : Nat}

/-! ## Numbers -/

theorem groupedFrom?_of_isDecimal (h : ∀ c ∈ s, isDecimal c = true) (value : Nat) :
    groupedFrom? value s = numeralFrom? value s := by
  have hline : isDecimal (.char '_') = false := by decide
  induction s generalizing value with
  | nil => rfl
  | cons c s ih =>
    obtain ⟨hc, hs⟩ := List.forall_mem_cons.1 h
    have hne : c ≠ .char '_' := by
      rintro rfl
      rw [hline] at hc
      cases hc
    rw [groupedFrom?.eq_def, numeralFrom?]
    split
    · next heq => cases heq
    · next heq => exact absurd (List.cons.inj heq).1 hne
    · next heq =>
      obtain ⟨rfl, rfl⟩ := List.cons.inj heq
      cases digitValue? c with
      | none => rfl
      | some d => exact ih hs _

theorem groupedNumeral?_of_denotes (h : Denotes s n) : groupedNumeral? s = some n := by
  have hdecimal := h.isDecimal
  have hread := h.numeralFrom?_eq
  cases s with
  | nil => exact absurd rfl h.ne_nil
  | cons c s =>
    rw [numeralFrom?] at hread
    rw [groupedNumeral?]
    cases hd : digitValue? c with
    | none =>
      rw [hd] at hread
      cases hread
    | some d =>
      simp only [hd, Nat.zero_mul, Nat.zero_add] at hread
      rw [← hread]
      exact groupedFrom?_of_isDecimal (fun c hc => hdecimal c (List.mem_cons_of_mem _ hc)) d

/-- A number is no blank text, whatever stands in front of it. -/
theorem allBlank_append_integer (s : Text) (i : Int) : allBlank (s ++ integer i) = false := by
  have hne : integer i ≠ [] := by
    unfold integer
    split
    · exact List.cons_ne_nil _ _
    · exact (denotes_natural _).ne_nil
  obtain ⟨c, hc⟩ := List.exists_mem_of_ne_nil _ hne
  refine List.all_eq_false.2 ⟨c, List.mem_append_right _ hc, ?_⟩
  rw [isBlank_of_mem_integer hc]
  exact nofun

theorem dropWhile_of_forall {p : CodePoint → Bool} (h : ∀ c ∈ s, p c = false) :
    s.dropWhile p = s := by
  cases s with
  | nil => rfl
  | cons c s => exact List.dropWhile_cons_of_neg (by simp [h c List.mem_cons_self])

theorem trimMargin_of_not_isMargin (h : ∀ c ∈ s, isMargin c = false) : trimMargin s = s := by
  have hreverse := dropWhile_of_forall (s := s.reverse) fun c hc => h c (List.mem_reverse.1 hc)
  rw [trimMargin, dropWhile_of_forall h, hreverse, List.reverse_reverse]

/-- A number that was written is read again. -/
theorem integer?_integer (i : Int) : integer? (integer i) = some i := by
  have hread := groupedNumeral?_of_denotes (denotes_natural i.natAbs)
  have hmargin : ∀ c ∈ integer i, isMargin c = false := fun c hc => by
    rw [isMargin, isBlank_of_mem_integer hc, Bool.false_and]
  rw [integer?, trimMargin_of_not_isMargin hmargin, integer]
  by_cases hneg : i < 0
  · have hvalue : -(i.natAbs : Int) = i := by omega
    simp only [if_pos hneg, hread]
    exact congrArg some hvalue
  · have hsigns : isDecimal (.char '-') = false ∧ isDecimal (.char '+') = false := by decide
    have hdecimal := (denotes_natural i.natAbs).isDecimal
    have hvalue : Int.ofNat i.natAbs = i := by simp; omega
    rw [if_neg hneg]
    split
    · next heq =>
      rw [heq] at hdecimal
      cases hsigns.1.symm.trans (hdecimal _ List.mem_cons_self)
    · next heq =>
      rw [heq] at hdecimal
      cases hsigns.2.symm.trans (hdecimal _ List.mem_cons_self)
    · rw [hread, Option.map_some, hvalue]

/-- A blank in front of a number does not count. -/
theorem integer?_blank (s : Text) : integer? (' ' :: s) = integer? s := by
  have hmargin : isMargin ' ' = true := by decide
  rw [integer?, integer?, trimMargin, List.dropWhile_cons_of_pos hmargin]
  rfl

/-! ## Lists -/

/-- Cutting a list at its commas leaves the blanks in front of its items. -/
theorem split_list {first : Text} {rest : List Text} (hfirst : .char ',' ∉ first)
    (hrest : ∀ piece ∈ rest, .char ',' ∉ piece) :
    split ',' (joinWith ", " (first :: rest)) = first :: rest.map (' ' :: ·) := by
  induction rest generalizing first with
  | nil => exact split_of_not_mem hfirst
  | cons second rest ih =>
    obtain ⟨hsecond, hrest⟩ := List.forall_mem_cons.1 hrest
    have hblank : .char ',' ∉ (.char ' ' :: second : Text) := by simpa using hsecond
    have hjoined : joinWith ", " (first :: second :: rest) =
        first ++ .char ',' :: joinWith ", " ((' ' :: second) :: rest) := by
      have hfront : joinWith ", " ((' ' :: second) :: rest) =
          .char ' ' :: joinWith ", " (second :: rest) := by
        cases rest <;> rfl
      rw [hfront]
      exact List.append_assoc first ", " _
    rw [hjoined, split_append_cons hfirst, ih hblank hrest, List.map_cons]

/-- Marks around a text that holds none are taken off. -/
theorem unmark {p : CodePoint → Bool} {first last : CodePoint} (hfirst : p first = true)
    (hlast : p last = true) (h : ∀ c ∈ s, p c = false) :
    (((first :: s ++ [last]).dropWhile p).reverse.dropWhile p).reverse = s := by
  cases s with
  | nil => simp [hfirst, hlast]
  | cons c s =>
    have hc : ¬ p c = true := by simp [h c List.mem_cons_self]
    have hreverse := dropWhile_of_forall (s := (c :: s).reverse) fun c hc =>
      h c (List.mem_reverse.1 hc)
    rw [List.cons_append, List.dropWhile_cons_of_pos hfirst, List.cons_append,
      List.dropWhile_cons_of_neg hc, ← List.cons_append, List.reverse_append,
      List.reverse_singleton, List.singleton_append, List.dropWhile_cons_of_pos hlast, hreverse,
      List.reverse_reverse]

end Text

namespace IndexPath
variable {c : CodePoint} {path : IndexPath}

/-- What a list of numbers is written with between its brackets. -/
theorem of_mem_list (h : c ∈ Text.joinWith ", " (path.map Text.integer)) :
    Text.isDecimal c = true ∨ c ∈ ("-, " : Text) := by
  by_cases hbetween : c ∈ (", " : Text)
  · exact .inr (List.mem_cons_of_mem _ hbetween)
  · obtain ⟨piece, hpiece, hc⟩ := (Text.mem_joinWith_iff hbetween).1 h
    obtain ⟨i, _, rfl⟩ := List.mem_map.1 hpiece
    obtain hdecimal | rfl := Text.of_mem_integer hc
    · exact .inl hdecimal
    · exact .inr List.mem_cons_self

theorem numbers?_joinWith (path : IndexPath) :
    numbers? (Text.joinWith ", " (path.map Text.integer)) = some path := by
  have hcomma : ∀ i : Int, .char ',' ∉ Text.integer i := by
    intro i hmem
    have hnot : Text.isDecimal (.char ',') = false := by decide
    obtain hdecimal | heq := Text.of_mem_integer hmem
    · cases hnot.symm.trans hdecimal
    · cases heq
  cases path with
  | nil => rfl
  | cons i rest =>
    have hfirst : (!Text.allBlank (Text.integer i)) = true := by
      have hblank : Text.allBlank (Text.integer i) = false := Text.allBlank_append_integer [] i
      rw [hblank, Bool.not_false]
    have hspaced : ∀ piece ∈ (rest.map Text.integer).map (.char ' ' :: ·),
        (!Text.allBlank piece) = true := by
      intro piece hpiece
      obtain ⟨_, hmem, rfl⟩ := List.mem_map.1 hpiece
      obtain ⟨j, _, rfl⟩ := List.mem_map.1 hmem
      rw [← List.singleton_append, Text.allBlank_append_integer, Bool.not_false]
    have hread : ((rest.map Text.integer).map (.char ' ' :: ·)).mapM Text.integer? = some rest := by
      rw [List.map_map, List.mapM_map]
      simp only [Function.comp_def, Text.integer?_blank, Text.integer?_integer]
      exact (List.mapM_pure (m := Option) (f := id)).trans (congrArg some (List.map_id rest))
    rw [List.map_cons, numbers?, Text.split_list (hcomma i) (by simpa using fun i _ => hcomma i)]
    have hall : ((Text.integer i :: (rest.map Text.integer).map (.char ' ' :: ·)).filter
        fun piece => !Text.allBlank piece) =
          Text.integer i :: (rest.map Text.integer).map (.char ' ' :: ·) :=
      List.filter_eq_self.2 (List.forall_mem_cons.2 ⟨hfirst, hspaced⟩)
    refine (congrArg (List.mapM Text.integer?) hall).trans ?_
    rw [List.mapM_cons, Text.integer?_integer, hread]
    rfl

/-- A path that was written is read again. -/
theorem read?_integers (path : IndexPath) : read? (Text.integers path) = some path := by
  let isBracket : CodePoint → Bool := fun c => c == '[' || c == ']'
  let list := Text.joinWith ", " (path.map Text.integer)
  have hmarks : ∀ c ∈ ("[]." : Text), Text.isDecimal c = false ∧ c ∉ ("-, " : Text) := by decide
  have hnone : ∀ c ∈ list, c ∉ ("[]." : Text) := by
    intro c hc hmark
    obtain hdecimal | hother := of_mem_list hc
    · cases (hmarks c hmark).1.symm.trans hdecimal
    · exact (hmarks c hmark).2 hother
  have hbracket : ∀ c ∈ list, isBracket c = false := by
    intro c hc
    rw [← Bool.not_eq_true, Bool.or_eq_true, beq_iff_eq, beq_iff_eq]
    rintro (rfl | rfl) <;> exact hnone _ hc (by decide)
  have hpoint : list.map (fun c => if c = .char '.' then .char ',' else c) = list := by
    refine (List.map_congr_left fun c hc => if_neg ?_).trans (List.map_id _)
    rintro rfl
    exact hnone _ hc (by decide)
  have hends : Text.Trimmed (.char '[' :: list ++ [.char ']']) :=
    Text.trimmed_append_cons (List.cons_ne_nil _ _) (by rintro _ ⟨⟩; decide) (by decide) nofun
  have htrim : Text.trim (Text.integers path) = .char '[' :: list ++ [.char ']'] :=
    Text.trim_of_trimmed hends
  have hinner := Text.unmark (rfl : isBracket (.char '[') = true)
    (rfl : isBracket (.char ']') = true) hbracket
  unfold read?
  rw [htrim]
  change numbers? (List.map _ _) = _
  rw [hinner, hpoint]
  exact numbers?_joinWith path

end IndexPath
end RandomTables
