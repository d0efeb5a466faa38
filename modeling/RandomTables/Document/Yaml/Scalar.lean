import RandomTables.Document.Yaml.Tag
import RandomTables.Text.Casing
import RandomTables.Text.Digit

/-!
# Scalars

The value of a scalar that is to be read as its tag says. A scalar that is spelled like a number or
date may still be none, and one whose tag is named may be spelled in any way.
-/
namespace RandomTables.Yaml

/-- Why a scalar has no value: an escape names no code point, or the text does not suit the tag. -/
inductive ScalarFault where
  | codePoint (found : Nat)
  | whole (base : Nat) (digits : Text)
  | decimal (found : Text)
  | empty
  | weight
  | truth (found : Text)
  | noMoment
  | moment (fault : TimestampFault)
  deriving Repr, Inhabited

namespace ScalarFault

/-- The fault is a number too large to be handled at all. -/
def isOverflow : ScalarFault → Bool
  | codePoint found => found ≥ 0x80000000
  | weight => true
  | _ => false

/-- The fault is of a graver kind than a text that does not suit. -/
def isGrave : ScalarFault → Bool
  | empty | truth _ | noMoment => true
  | fault => fault.isOverflow

/-- The wording of a fault. Of digits no more is shown than two hundred signs. -/
def message : ScalarFault → Text
  | codePoint found =>
    if found < 0x80000000 then "chr() arg not in range(0x110000)"
    else "code point too large"
  | whole base digits => "invalid literal for int() with base " ++ Text.integer base ++ ": " ++
      (Text.quoted digits).take 200
  | decimal found => "could not convert string to float: " ++ Text.quoted found
  | empty => "string index out of range"
  | weight => "int too large to convert to float"
  | truth found => Text.quoted found
  | noMoment => "'NoneType' object has no attribute 'groupdict'"
  | moment fault => fault.message

end ScalarFault

/-- The value of a digit in a base; ten digits may be of any script. -/
def digitIn? (base : Nat) (c : CodePoint) : Option Nat :=
  ((Text.digitValue? c).or (Json.hexDigit? c)).filter (· < base)

/-- The letter that may stand after a zero in front of digits in a base. -/
def isBaseLetter (base : Nat) (c : CodePoint) : Bool :=
  match base with
  | 2 => c == 'b' || c == 'B'
  | 8 => c == 'o' || c == 'O'
  | _ => c == 'x' || c == 'X'

/-- The number that a text spells in a base of two, eight or sixteen, with blanks around it and a
sign. -/
def basedNumber? (base : Nat) (s : Text) : Option Int :=
  let (negative, s) := unsign (Text.trimMargin s)
  let digits := match s with
    | .char '0' :: c :: rest => if isBaseLetter base c then rest else s
    | s => s
  let n := digits.foldlM (fun n c => (digitIn? base c).map (n * base + ·)) 0
  if digits.isEmpty then none
  else n.map fun (n : Nat) => if negative then -(n : Int) else n

def numberIn (base : Nat) (s : Text) : Except ScalarFault Int :=
  match if base = 10 then Text.integer? s else basedNumber? base s with
  | some n => .ok n
  | none => .error (.whole base s)

/-- A text without low lines after its sign, of which it needs at least one character. -/
def signed (s : Text) : Except ScalarFault (Bool × Text) :=
  if s.isEmpty then .error .empty else .ok (unsign s)

/-- The value of parts in base sixty. -/
def sixties (parts : List Int) : Int := parts.foldl (fun n part => n * 60 + part) 0

def wholeValue (text : Text) : Except ScalarFault Int := do
  let (negative, s) ← signed (text.filter (· ≠ .char '_'))
  let n ← match s with
    | [] => .error .empty
    | [.char '0'] => .ok 0
    | .char '0' :: .char 'b' :: digits => numberIn 2 digits
    | .char '0' :: .char 'x' :: digits => numberIn 16 digits
    | .char '0' :: _ => numberIn 8 s
    | s => ((Text.split ':' s).mapM (numberIn 10)).map sixties
  return if negative then -n else n

/-- The decimal that digits, a point and an exponent spell. -/
def digitsValue? (negative : Bool) (s : Text) : Option Double :=
  let whole := s.takeWhile CodePoint.isDigit
  let (fraction, rest) := match s.dropWhile CodePoint.isDigit with
    | .char '.' :: rest => (rest.takeWhile CodePoint.isDigit, rest.dropWhile CodePoint.isDigit)
    | rest => ([], rest)
  let power := if rest.isEmpty then some (0, []) else Json.exponent? rest
  match power with
  | some (power, []) =>
    if whole.isEmpty && fraction.isEmpty then none
    else some (.ofDecimal negative (Json.plainNumber (whole ++ fraction)) (power - fraction.length))
  | _ => none

/-- The character, or the digit of ASCII with its place value. -/
def plainDigit (c : CodePoint) : CodePoint :=
  match Text.digitValue? c with
  | some d => .ofNat ('0'.toNat + d)
  | none => c

/-- The decimal that a text in small letters spells, with blanks around it and a sign. -/
def double? (s : Text) : Option Double :=
  let (negative, s) := unsign ((Text.trimMargin s).map plainDigit)
  if isOneOf s ["inf", "infinity"] then some (.infinite negative)
  else if s = "nan" then some .nan
  else digitsValue? negative s

/-- The decimal that a text in small letters spells. -/
def double (s : Text) : Except ScalarFault Double :=
  match double? s with
  | some d => .ok d
  | none => .error (.decimal s)

/-- The sum so far and the value of further parts in base sixty, the last part first. Every product
and sum is rounded, and what a part counts for has to be finite. -/
def sixtiesFrom (sum : Double) (weight : Nat) : List Double → Except ScalarFault Double
  | [] => .ok sum
  | part :: rest =>
    let factor := Double.ofDecimal false weight 0
    if factor.isFinite then sixtiesFrom (sum.add (part.mul factor)) (weight * 60) rest
    else .error .weight

def decimalValue (text : Text) : Except ScalarFault Double := do
  let (negative, s) ← signed (Text.lower (text.filter (· ≠ .char '_')))
  if s = ".nan" then return .nan
  let d ←
    if s = ".inf" then .ok (.infinite false)
    else
      match Text.split ':' s with
      | [s] => double s
      | parts => do
        let parts ← parts.mapM double
        sixtiesFrom (.zero false) 1 parts.reverse
  return if negative then d.neg else d

/-- The truth value that a word stands for, in letters of any case. -/
def truthValue (text : Text) : Except ScalarFault Bool :=
  let word := Text.lower text
  if isOneOf word ["yes", "true", "on"] then .ok true
  else if isOneOf word ["no", "false", "off"] then .ok false
  else .error (.truth word)

/-- The date that a text denotes. -/
def momentValue (text : Text) : Except ScalarFault Scalar :=
  match moment? (withoutLastFeed text) with
  | none => .error .noMoment
  | some (t, timed) =>
    match t.checked with
    | .ok t => .ok (.moment t timed)
    | .error fault => .error (.moment fault)

/-- Why a text cannot be decoded: it is no document, or a scalar in it has no value. -/
inductive Fault where
  | unreadable
  | scalar (fault : ScalarFault)
  deriving Repr, Inhabited

/-- The value of a scalar that is to be read as a tag says. -/
def Tag.scalar (tag : Tag) (text : Text) : Except Fault Scalar :=
  match tag with
  | null => .ok .null
  | truth => ((truthValue text).map .bool).mapError .scalar
  | whole => ((wholeValue text).map .int).mapError .scalar
  | decimal => ((decimalValue text).map .float).mapError .scalar
  | moment => (momentValue text).mapError .scalar
  | .text => .ok (.text text)
  | list | map | merge | default | unknown => .error .unreadable

end RandomTables.Yaml
