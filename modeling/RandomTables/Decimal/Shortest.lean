import RandomTables.Decimal.Double
import RandomTables.Text.Basic

/-!
# Shortest decimal text

A finite double is written with the fewest digits that read back as the same double, and of those
the nearest ones. On the grid with `n` digits only the two neighbours of the exact value can be the
nearest, so they are the candidates, and the first grid with a candidate that reads back wins.

The decimals are positional while the exponent of the leading digit lies from -4 to 15, and keep a
zero after the point when they are whole. Outside that the text has one digit before the point and
an exponent with a sign and at least two digits.
-/
namespace RandomTables.Double

/-- The exponent of the leading decimal digit of the positive ratio `num / den`. -/
def leadingPower (num den : Nat) : Int :=
  if den ≤ num then ((Nat.toDigits 10 (num / den)).length : Int) - 1
  else
    let l := (Nat.toDigits 10 (den / num)).length
    if den ≤ num * Nat.pow 10 (l - 1) then -((l : Int) - 1) else -(l : Int)

/-- The value on the grid of `10 ^ power`, cut to a whole number: quotient, rest and divisor. -/
def onGrid (num den : Nat) (power : Int) : Nat × Nat × Nat :=
  let (n, d) :=
    if power < 0 then (num * Nat.pow 10 (-power).toNat, den)
    else (num, den * Nat.pow 10 power.toNat)
  (n / d, n % d, d)

/-- The nearest decimal with the given exponent that reads back as the double. -/
def readsBackAt? (magnitude : Nat) (exponent power : Int) : Option Nat :=
  let target := finite false magnitude exponent
  let r := ratio magnitude exponent
  let (q, rest, d) := onGrid r.1 r.2 power
  let back (digits : Nat) : Bool := decide (ofDecimal false digits power = target)
  let (near, far) := if 2 * rest < d || (2 * rest = d && q % 2 = 0) then (q, q + 1) else (q + 1, q)
  if back near then some near else if back far then some far else none

/-- The first decimal that reads back, when the grids from the coarsest on are tried in turn. -/
def search (magnitude : Nat) (exponent lead : Int) : Nat → Nat → Nat × Int
  | _, 0 => (0, 0)
  | n, tries + 1 =>
    let power := lead - n
    match readsBackAt? magnitude exponent power with
    | some digits => (digits, power)
    | none => search magnitude exponent lead (n + 1) tries

/-- Digits without trailing zeros, and the exponent of the last digit. -/
def shortest (magnitude : Nat) (exponent : Int) : List Char × Int :=
  let r := ratio magnitude exponent
  let (digits, power) := search magnitude exponent (leadingPower r.1 r.2) 0 17
  let text := Nat.toDigits 10 digits
  let zeros := (text.reverse.takeWhile (· = '0')).length
  (text.take (text.length - zeros), power + zeros)

/-- Digits with their last one at `10 ^ power`, as text. -/
def layout (digits : List Char) (power : Int) : List Char :=
  let lead : Int := digits.length - 1 + power
  if lead < -4 || lead ≥ 16 then
    let mantissa := match digits with
      | [] => []
      | [d] => [d]
      | d :: rest => d :: '.' :: rest
    let size := Nat.toDigits 10 lead.natAbs
    mantissa ++ ['e', if lead < 0 then '-' else '+'] ++ List.replicate (2 - size.length) '0' ++ size
  else if power ≥ 0 then digits ++ List.replicate power.toNat '0' ++ ['.', '0']
  else if lead < 0 then
    ['0', '.'] ++ List.replicate (-lead - 1).toNat '0' ++ digits
  else digits.take (lead + 1).toNat ++ ['.'] ++ digits.drop (lead + 1).toNat

def text : Double → Text
  | nan => "nan"
  | infinite negative => if negative then "-inf" else "inf"
  | finite negative m e =>
    let body := if m = 0 then ['0', '.', '0'] else
      let (digits, power) := shortest m e
      layout digits power
    Text.ofChars (if negative then '-' :: body else body)

end RandomTables.Double
