import RandomTables.Text.Split

/-!
# Numbers as text

Whole numbers in base ten, with a minus sign in front of negative ones. However long a number is, it
can be written out; a limit that the machine sets on its digits is left out.
-/
namespace RandomTables.Text

/-- The decimal digits of a number. -/
def natural (n : Nat) : Text := ofChars (Nat.toDigits 10 n)

/-- A whole number in base ten. -/
def integer (n : Int) : Text :=
  if n < 0 then '-' :: natural n.natAbs else natural n.natAbs

@[simp] theorem integer_natCast (n : Nat) : integer n = natural n := by
  rw [integer, if_neg (Int.not_lt.2 (Int.natCast_nonneg n)), Int.natAbs_natCast]

/-- A number with zeros in front up to a width. -/
def padded (width n : Nat) : Text :=
  copies (width - (natural n).length) '0' ++ natural n

/-- Whole numbers between brackets, with a comma between neighbours. -/
def integers (values : List Int) : Text :=
  "[" ++ joinWith ", " (values.map integer) ++ "]"

end RandomTables.Text
