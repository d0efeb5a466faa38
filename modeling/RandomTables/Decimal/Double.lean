/-!
# Doubles

A double is a sign with a magnitude of 53 bits and a binary exponent, an infinity, or no number.
Every finite one is an exact ratio, and `ofRatio` goes the other way: it takes the nearest double,
and the even one of two that are equally near.
-/
namespace RandomTables

/-- A number of the binary format with 53 bits of magnitude. -/
inductive Double where
  | finite (negative : Bool) (magnitude : Nat) (exponent : Int)
  | infinite (negative : Bool)
  | nan
  deriving Repr, DecidableEq

namespace Double

instance : Inhabited Double := ⟨nan⟩

def zero (negative : Bool) : Double := finite negative 0 (-1074)

/-- The quotient rounded to the nearest whole number, a half to the even neighbour. -/
def roundDiv (num den : Nat) : Nat :=
  let q := num / den
  let twice := 2 * (num % den)
  if twice < den then q else if twice > den then q + 1 else q + q % 2

/-- The ratio `num / den` times two to a power, as a pair. -/
def scale (num den : Nat) (power : Int) : Nat × Nat :=
  if power < 0 then (num, den * Nat.pow 2 (-power).toNat)
  else (num * Nat.pow 2 power.toNat, den)

/-- The exponent at which the ratio has a magnitude of 53 bits, or the least exponent there is. -/
def exponentFor (num den : Nat) : Int :=
  let guess : Int := (Nat.log2 num : Int) - (Nat.log2 den : Int) - 52
  let s := scale num den (-guess)
  let exact := if s.1 / s.2 < Nat.pow 2 52 then guess - 1 else guess
  max exact (-1074)

/-- The double nearest to `num / den`. -/
def ofRatio (negative : Bool) (num den : Nat) : Double :=
  if num = 0 then zero negative
  else
    let e := exponentFor num den
    let s := scale num den (-e)
    let m := roundDiv s.1 s.2
    let (m, e) := if m = Nat.pow 2 53 then (Nat.pow 2 52, e + 1) else (m, e)
    if m = 0 then zero negative else if e > 971 then infinite negative else finite negative m e

def ofDecimal (negative : Bool) (digits : Nat) (power : Int) : Double :=
  let size : Int := (Nat.toDigits 10 digits).length + power
  if digits = 0 then zero negative
  else if size > 400 then infinite negative
  else if size < -400 then zero negative
  else if power < 0 then ofRatio negative digits (Nat.pow 10 (-power).toNat)
  else ofRatio negative (digits * Nat.pow 10 power.toNat) 1

/-- The magnitude of a finite double as an exact ratio. -/
def ratio (magnitude : Nat) (exponent : Int) : Nat × Nat := scale magnitude 1 exponent

/-- The number with the other sign. -/
def neg : Double → Double
  | finite s m e => finite (!s) m e
  | infinite s => infinite (!s)
  | nan => nan

def isZero : Double → Bool
  | finite _ m _ => m == 0
  | _ => false

def isFinite : Double → Bool
  | finite .. => true
  | _ => false

/-- The number has a minus sign. -/
def isNegative : Double → Bool
  | finite s _ _ => s
  | infinite s => s
  | nan => false

/-- Product of two numbers, rounded once. -/
def mul : Double → Double → Double
  | finite s m e, finite t n f =>
    let a := ratio m e
    let b := ratio n f
    ofRatio (s != t) (a.1 * b.1) (a.2 * b.2)
  | nan, _ => nan
  | _, nan => nan
  | a, b => if a.isZero || b.isZero then nan else infinite (a.isNegative != b.isNegative)

/-- Sum of two numbers, rounded once. A sum of zero is negative only if both numbers are. -/
def add : Double → Double → Double
  | finite s m e, finite t n f =>
    let a := ratio m e
    let b := ratio n f
    let part (negative : Bool) (size : Nat) : Int := if negative then -(size : Int) else size
    let sum := part s (a.1 * b.2) + part t (b.1 * a.2)
    ofRatio (if sum = 0 then s && t else sum < 0) sum.natAbs (a.2 * b.2)
  | infinite s, infinite t => if s = t then infinite s else nan
  | infinite s, finite .. => infinite s
  | finite .., infinite s => infinite s
  | _, _ => nan

/-- The whole number that the double is equal to, if it is one. -/
def toInt? : Double → Option Int
  | finite s m e =>
    let r := ratio m e
    if r.1 % r.2 = 0 then some (if s then -((r.1 / r.2 : Nat) : Int) else (r.1 / r.2 : Nat))
    else none
  | _ => none

end Double
end RandomTables
