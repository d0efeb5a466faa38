import RandomTables.Text.Blank
import RandomTables.Text.Digit
import RandomTables.Text.Line
import RandomTables.Text.Split

/-!
# Stretches of a text

What trimming and cutting leave of a text stands in the text in one piece, and so does each of its
lines. So whatever is found in such a part is found in the whole.

A run of digit signs denotes no number exactly if it is empty or one of its signs has no place
value. Digit signs are never blanks, so trimming leaves such a run as it is.
-/
namespace RandomTables.Text

/-! ## Parts of a text -/

theorem trimStart_suffix (s : Text) : trimStart s <:+ s := List.dropWhile_suffix isBlank

theorem infix_trim (s : Text) : trim s <:+: s := by
  have hstart := trimEnd_prefix (trimStart s)
  exact hstart.isInfix.trans (trimStart_suffix s).isInfix

/-- Without blanks there is nothing to trim. -/
theorem trim_of_not_isBlank {s : Text} (h : ∀ c ∈ s, isBlank c = false) : trim s = s := by
  have hid : ∀ t : Text, (∀ c ∈ t, isBlank c = false) → trimStart t = t := by
    intro t ht
    cases t with
    | nil => rfl
    | cons c t => exact trimStart_cons_of_not_isBlank (ht c (List.mem_cons_self ..))
  have hend := hid s.reverse fun c hc => h c (List.mem_reverse.1 hc)
  rw [trim, hid s h]
  change (trimStart s.reverse).reverse = s
  rw [hend, List.reverse_reverse]

theorem allBlank_iff {s : Text} : allBlank s ↔ ∀ c ∈ s, isBlank c := List.all_eq_true

theorem allBlank_nil : allBlank [] := rfl

theorem allBlank_append {s t : Text} (hs : allBlank s) (ht : allBlank t) : allBlank (s ++ t) := by
  rw [allBlank, List.all_append, Bool.and_eq_true]
  exact ⟨hs, ht⟩

/-- A text starts with the blanks that trimming takes off. -/
theorem exists_allBlank_append (s : Text) : ∃ ws, allBlank ws ∧ s = ws ++ trimStart s :=
  ⟨s.takeWhile isBlank, List.all_takeWhile, (List.takeWhile_append_dropWhile ..).symm⟩

theorem trimStart_append {ws : Text} (h : allBlank ws) (s : Text) :
    trimStart (ws ++ s) = trimStart s :=
  List.dropWhile_append_of_pos (allBlank_iff.1 h)

theorem trimStart_of_allBlank {s : Text} (h : allBlank s) : trimStart s = [] := by
  have htrim := trimStart_append h []
  rwa [List.append_nil] at htrim

theorem trimStart_append_cons {ws : Text} (h : allBlank ws) {c : CodePoint}
    (hc : isBlank c = false) (s : Text) : trimStart (ws ++ c :: s) = c :: s := by
  rw [trimStart_append h, trimStart_cons_of_not_isBlank hc]

/-- A run of signs of a kind ends where a sign of another kind follows. -/
theorem takeWhile_append {p : CodePoint → Bool} {s rest : Text} (hs : ∀ c ∈ s, p c)
    (hrest : ∀ c ∈ rest.head?, p c = false) :
    (s ++ rest).takeWhile p = s ∧ (s ++ rest).dropWhile p = rest := by
  rw [List.takeWhile_append_of_pos hs, List.dropWhile_append_of_pos hs]
  cases rest with
  | nil => simp
  | cons c rest => simp [hrest c rfl]

/-- What comes after the first blanks and one more character ends the text. -/
theorem suffix_of_trimStart_eq_cons {s rest : Text} {c : CodePoint}
    (h : trimStart s = c :: rest) : rest <:+ s := by
  have hsuffix := trimStart_suffix s
  rw [h] at hsuffix
  exact (List.suffix_cons c rest).trans hsuffix

/-- What stands after the first separator ends the text. -/
theorem suffix_of_cut {sep : CodePoint} {s rest : Text} (h : (cut sep s).2 = some rest) :
    rest <:+ s := by
  induction s with
  | nil => cases h
  | cons c s ih =>
    rw [cut] at h
    split at h
    · obtain rfl := Option.some.inj h
      exact List.suffix_cons c s
    · exact (ih h).trans (List.suffix_cons c s)

theorem infix_of_mem_linesFrom {begun s line : Text} (h : line ∈ linesFrom begun s) :
    line <:+: begun.reverse ++ s := by
  fun_induction linesFrom begun s with
  | case1 begun _ => cases h
  | case2 begun _ =>
    obtain rfl := List.mem_singleton.1 h
    exact (List.prefix_append _ _).isInfix
  | case3 begun rest ih =>
    rcases List.mem_cons.1 h with rfl | h
    · exact (List.prefix_append _ _).isInfix
    · refine (ih h).trans (List.IsSuffix.isInfix ?_)
      exact ⟨begun.reverse ++ [.char '\r', .char '\n'], by simp⟩
  | case4 begun c rest _ _ ih =>
    rcases List.mem_cons.1 h with rfl | h
    · exact (List.prefix_append _ _).isInfix
    · refine (ih h).trans (List.IsSuffix.isInfix ?_)
      exact ⟨begun.reverse ++ [c], by simp⟩
  | case5 begun c rest _ _ ih =>
    have hwhole : (c :: begun).reverse ++ rest = begun.reverse ++ c :: rest := by simp
    exact hwhole ▸ ih h

/-- Each line of a text stands in it. -/
theorem infix_of_mem_lines {s line : Text} (h : line ∈ lines s) : line <:+: s :=
  infix_of_mem_linesFrom h

/-! ## Runs that denote no number -/

theorem numeralFrom?_eq_none_iff {value : Nat} {s : Text} :
    numeralFrom? value s = none ↔ ∃ c ∈ s, isDecimal c = false := by
  induction s generalizing value with
  | nil => simp [numeralFrom?]
  | cons c s ih =>
    rw [numeralFrom?]
    cases hc : digitValue? c with
    | none => simp [isDecimal, hc]
    | some d => simp [isDecimal, hc, ih]

/-- A run denotes no number exactly if it is empty or holds a sign without a place value. -/
theorem numeral?_eq_none_iff {s : Text} :
    numeral? s = none ↔ s = [] ∨ ∃ c ∈ s, isDecimal c = false := by
  unfold numeral?
  cases s with
  | nil => simp
  | cons c s => simp [numeralFrom?_eq_none_iff]

/-- The numbers of all blanks. -/
def blankNumbers : List Nat :=
  [9, 10, 11, 12, 13, 28, 29, 30, 31, 32, 0x85, 0xA0, 0x1680, 0x2000, 0x2001, 0x2002, 0x2003,
    0x2004, 0x2005, 0x2006, 0x2007, 0x2008, 0x2009, 0x200A, 0x2028, 0x2029, 0x202F, 0x205F, 0x3000]

theorem mem_blankNumbers {c : CodePoint} (h : isBlank c) : c.toNat ∈ blankNumbers := by
  simp only [isBlank, Bool.or_eq_true, Bool.and_eq_true, decide_eq_true_eq, beq_iff_eq] at h
  simp only [blankNumbers, List.mem_cons, List.not_mem_nil, or_false]
  omega

/-- No digit sign is a blank. -/
theorem isBlank_of_isDigitSign {c : CodePoint} (h : isDigitSign c) : isBlank c = false := by
  have hblanks : ∀ n ∈ blankNumbers, isDigitSign (CodePoint.ofNat n) = false := by
    decide +kernel
  rw [← Bool.not_eq_true]
  intro hblank
  have hsign := hblanks _ (mem_blankNumbers hblank)
  rw [CodePoint.ofNat_toNat, h] at hsign
  cases hsign

/-- A digit sign is none of the characters that are not. -/
theorem ne_of_isDigitSign {c : CodePoint} (hc : isDigitSign c) {special : Char}
    (hspecial : isDigitSign special = false) : c ≠ .char special := by
  rintro rfl
  rw [hspecial] at hc
  cases hc

/-- In a text there is a run of digit signs that denotes no number, because one of them has no place
value. -/
structure UnreadableIn (run s : Text) : Prop where
  stands : run <:+: s
  digitSigns : ∀ c ∈ run, isDigitSign c
  noPlaceValue : ∃ c ∈ run, isDecimal c = false

theorem UnreadableIn.mono {run s t : Text} (h : run.UnreadableIn s) (hs : s <:+: t) :
    run.UnreadableIn t :=
  ⟨h.stands.trans hs, h.digitSigns, h.noPlaceValue⟩

end RandomTables.Text
