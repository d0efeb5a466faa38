/-!
# Code points

A code point is a character, or one half of a surrogate pair that stands without the other half.
Halves are numbered between the characters, from 0xD800 to 0xDFFF, and an escape or a file name
may hold one. The number tells every code point from every other one.
-/
namespace RandomTables

/-- A character, or a half of a surrogate pair that stands alone. -/
inductive CodePoint where
  | char (c : Char)
  | half (index : Fin 2048)
  deriving Repr, DecidableEq, Inhabited

namespace CodePoint

instance : Coe Char CodePoint := ⟨char⟩

def toNat : CodePoint → Nat
  | char c => c.toNat
  | half index => 0xD800 + index

def ofNat (n : Nat) : CodePoint :=
  if h : 0xD800 ≤ n ∧ n < 0xE000 then half ⟨n - 0xD800, by omega⟩ else char (Char.ofNat n)

def char? : CodePoint → Option Char
  | char c => some c
  | half _ => none

/-- Code points are ordered by their numbers. -/
instance : LT CodePoint := ⟨fun a b => a.toNat < b.toNat⟩

instance : DecidableLT CodePoint := fun a b => inferInstanceAs (Decidable (a.toNat < b.toNat))

/-- One of the ten digits of ASCII. -/
def isDigit : CodePoint → Bool
  | char c => c.isDigit
  | half _ => false

/-- A letter of ASCII. -/
def isAlpha : CodePoint → Bool
  | char c => c.isAlpha
  | half _ => false

/-- A letter or digit of ASCII. -/
def isAlphanum : CodePoint → Bool
  | char c => c.isAlphanum
  | half _ => false

/-- The small counterpart of a letter of ASCII. -/
def toLower : CodePoint → CodePoint
  | char c => char c.toLower
  | half index => half index

/-- The code point lies between two characters, both of them counted in. -/
def within (c : CodePoint) (low high : Char) : Bool := low.toNat ≤ c.toNat && c.toNat ≤ high.toNat

def isHalf : CodePoint → Bool
  | char _ => false
  | half _ => true

/-- The number of a character is no half's. -/
theorem not_half_of_char (c : Char) : ¬(0xD800 ≤ c.toNat ∧ c.toNat < 0xE000) := by
  have h : c.toNat < 0xD800 ∨ 0xDFFF < c.toNat ∧ c.toNat < 0x110000 := c.valid
  omega

@[simp] theorem ofNat_toNat (c : CodePoint) : ofNat c.toNat = c := by
  cases c with
  | char c => simp [ofNat, toNat, not_half_of_char c]
  | half index =>
    have h : 0xD800 ≤ (half index).toNat ∧ (half index).toNat < 0xE000 := by
      have := index.isLt
      simp only [toNat]
      omega
    rw [ofNat, dif_pos h]
    simp [toNat]

end CodePoint
end RandomTables
