import RandomTables.Text.Basic

/-!
# Blanks

A blank is any character that Unicode counts as white space, and the four information separators.
Trimming takes the blanks off the ends of a text and touches nothing else.
-/
namespace RandomTables.Text

/-- The white space of every script, and the four information separators. -/
def isBlank (c : CodePoint) : Bool :=
  let n := c.toNat
  (9 ≤ n && n ≤ 13) || (28 ≤ n && n ≤ 32) || n == 0x85 || n == 0xA0 || n == 0x1680 ||
    (0x2000 ≤ n && n ≤ 0x200A) || n == 0x2028 || n == 0x2029 || n == 0x202F || n == 0x205F ||
    n == 0x3000

def trimStart (s : Text) : Text := s.dropWhile isBlank

def trimEnd (s : Text) : Text := (s.reverse.dropWhile isBlank).reverse

def trim (s : Text) : Text := trimEnd (trimStart s)

def allBlank (s : Text) : Bool := s.all isBlank

theorem length_dropWhile_le {α : Type} (p : α → Bool) (s : List α) :
    (s.dropWhile p).length ≤ s.length := (List.dropWhile_sublist p).length_le

theorem length_trimStart_le (s : Text) : (trimStart s).length ≤ s.length :=
  length_dropWhile_le isBlank s

/-- What follows the first character that is no blank is shorter than the text. -/
theorem length_lt_of_trimStart_eq_cons {s r : Text} {c : CodePoint} (h : trimStart s = c :: r) :
    r.length < s.length := by
  have := length_trimStart_le s
  rw [h, List.length_cons] at this
  omega

@[simp] theorem trimStart_nil : trimStart [] = [] := rfl

/-- Whatever is left after the leading blanks does not start with one. -/
theorem isBlank_of_trimStart_eq_cons {s r : Text} {c : CodePoint} (h : trimStart s = c :: r) :
    isBlank c = false := by
  induction s with
  | nil => simp at h
  | cons a s ih =>
    cases ha : isBlank a with
    | true => exact ih (by simpa [trimStart, ha] using h)
    | false =>
      have : a = c := by simpa [trimStart, ha] using congrArg List.head? h
      exact this ▸ ha

/-- A text that does not start with a blank has no leading blanks. -/
theorem trimStart_cons_of_not_isBlank {c : CodePoint} {s : Text} (h : isBlank c = false) :
    trimStart (c :: s) = c :: s := by
  simp [trimStart, h]

@[simp] theorem trimStart_trimStart (s : Text) : trimStart (trimStart s) = trimStart s := by
  cases h : trimStart s with
  | nil => rfl
  | cons c rest => exact trimStart_cons_of_not_isBlank (isBlank_of_trimStart_eq_cons h)

@[simp] theorem trimEnd_trimEnd (s : Text) : trimEnd (trimEnd s) = trimEnd s := by
  have h := congrArg List.reverse (trimStart_trimStart s.reverse)
  simpa only [trimEnd, trimStart, List.reverse_reverse] using h

theorem trimEnd_prefix (s : Text) : trimEnd s <+: s := by
  have h : s.reverse.dropWhile isBlank <:+ s.reverse := List.dropWhile_suffix isBlank
  have h' := List.reverse_prefix.2 h
  rwa [List.reverse_reverse] at h'

/-- Trimming a trimmed text changes nothing. -/
@[simp] theorem trim_trim (s : Text) : trim (trim s) = trim s := by
  have hstart : trimStart (trim s) = trim s := by
    cases h : trim s with
    | nil => rfl
    | cons c rest =>
      obtain ⟨more, hmore⟩ := trimEnd_prefix (trimStart s)
      have hcons : trimStart s = c :: (rest ++ more) := by
        rw [← hmore]
        change trim s ++ more = _
        rw [h, List.cons_append]
      exact trimStart_cons_of_not_isBlank (isBlank_of_trimStart_eq_cons hcons)
  have hend : trimEnd (trim s) = trim s := trimEnd_trimEnd _
  change trimEnd (trimStart (trim s)) = trim s
  rw [hstart, hend]

end RandomTables.Text
