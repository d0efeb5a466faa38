import RandomTables.Text.Blank
import RandomTables.Text.DigitTable
import RandomTables.Text.Range

/-!
# Numerals

A decimal digit of any script has a place value, and a run of them denotes a number. A wider class
of signs counts as digits when one looks for the end of a run, though a run that holds one of the
others denotes nothing.
-/
namespace RandomTables.Text

/-- The place value of a decimal digit of any script. -/
def digitValue? (c : CodePoint) : Option Nat :=
  if c.isDigit then some (c.toNat - '0'.toNat)
  else
    (zeroDigits.find? fun z => z ≤ c.toNat && c.toNat ≤ z + 9).map (c.toNat - ·)

/-- A digit with a place value. -/
def isDecimal (c : CodePoint) : Bool := (digitValue? c).isSome

/-- A digit with or without a place value. -/
def isDigitSign (c : CodePoint) : Bool := isDecimal c || inRanges digitSignRanges c

/-- The number that digits denote after `value`. -/
def numeralFrom? (value : Nat) : Text → Option Nat
  | [] => some value
  | c :: rest =>
    match digitValue? c with
    | none => none
    | some d => numeralFrom? (value * 10 + d) rest

/-- The number that a run of digits denotes, leading zeros allowed. -/
def numeral? (s : Text) : Option Nat := if s.isEmpty then none else numeralFrom? 0 s

/-- The number after a first digit, where a single low line may stand between two digits. -/
def groupedFrom? (value : Nat) : Text → Option Nat
  | [] => some value
  | .char '_' :: c :: rest =>
    match digitValue? c with
    | none => none
    | some d => groupedFrom? (value * 10 + d) rest
  | c :: rest =>
    match digitValue? c with
    | none => none
    | some d => groupedFrom? (value * 10 + d) rest

/-- A run of digits, with single low lines between digits allowed. -/
def groupedNumeral? : Text → Option Nat
  | [] => none
  | c :: rest =>
    match digitValue? c with
    | none => none
    | some d => groupedFrom? d rest

/-- A blank that may stand around a number: any but the information separators. -/
def isMargin (c : CodePoint) : Bool := isBlank c && !(28 ≤ c.toNat && c.toNat ≤ 31)

def trimMargin (s : Text) : Text := ((s.dropWhile isMargin).reverse.dropWhile isMargin).reverse

/-- A whole number with blanks around it, a sign, and low lines between its digits. -/
def integer? (s : Text) : Option Int :=
  match trimMargin s with
  | .char '-' :: rest => (groupedNumeral? rest).map fun n => -(n : Int)
  | .char '+' :: rest => (groupedNumeral? rest).map Int.ofNat
  | rest => (groupedNumeral? rest).map Int.ofNat

end RandomTables.Text
