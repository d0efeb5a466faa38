import RandomTables.Text.Basic

/-!
# Splitting and joining

`split` cuts a text at every occurrence of a character, `cut` at the first one only, and
`joinWith` puts pieces together again.
-/
namespace RandomTables.Text

/-- The pieces between the occurrences of `sep`; there is one more piece than occurrences. -/
def split (sep : CodePoint) : Text → List Text
  | [] => [[]]
  | c :: rest =>
    if c = sep then [] :: split sep rest
    else
      match split sep rest with
      | [] => [[c]]
      | piece :: pieces => (c :: piece) :: pieces

/-- What stands before the first `sep`, and what stands after it if there is one. -/
def cut (sep : CodePoint) : Text → Text × Option Text
  | [] => ([], none)
  | c :: rest =>
    if c = sep then ([], some rest)
    else
      let (before, after) := cut sep rest
      (c :: before, after)

/-- The pieces in order with `sep` between neighbours. -/
def joinWith (sep : Text) : List Text → Text
  | [] => []
  | [piece] => piece
  | piece :: pieces => piece ++ sep ++ joinWith sep pieces

def occursIn (needle : Text) : Text → Bool
  | [] => needle.isEmpty
  | c :: rest => needle.isPrefixOf (c :: rest) || occursIn needle rest

theorem split_ne_nil (sep : CodePoint) (s : Text) : split sep s ≠ [] := by
  cases s with
  | nil => simp [split]
  | cons c rest =>
    simp only [split]
    split
    · simp
    · split <;> simp

/-- Joining the pieces with the separator gives the text back. -/
theorem joinWith_split (sep : CodePoint) (s : Text) : joinWith [sep] (split sep s) = s := by
  induction s with
  | nil => rfl
  | cons c rest ih =>
    by_cases h : c = sep
    · subst h
      cases hr : split c rest with
      | nil => exact absurd hr (split_ne_nil c rest)
      | cons p ps => rw [hr] at ih; simp [split, hr, joinWith, ih]
    · cases hr : split sep rest with
      | nil => exact absurd hr (split_ne_nil sep rest)
      | cons p ps =>
        rw [hr] at ih
        cases ps with
        | nil => simpa [split, h, hr, joinWith] using ih
        | cons q qs => simpa [split, h, hr, joinWith] using ih

end RandomTables.Text
