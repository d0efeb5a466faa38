import RandomTables.Document.Yaml.Moment
import RandomTables.Text.Split

/-!
# Tags

A tag says what a node is to be read as. It may be named in front of the node. A scalar without
quotes that names none is a truth value, a number, a date or nothing at all if it is spelled like
one, and a string otherwise. Whole numbers may be binary, octal, hexadecimal or in base sixty, and
may hold low lines; a decimal needs its point, and the exponent its sign.
-/
namespace RandomTables.Yaml

/-- What a node is to be read as. Two kinds have a meaning as keys only: one takes in the entries of
another map, the other is a key of no special meaning. -/
inductive Tag where
  | null
  | truth
  | whole
  | decimal
  | moment
  | text
  | list
  | map
  | merge
  | default
  | unknown
  deriving Repr, DecidableEq, Inhabited

/-- A sign taken off the front. -/
def unsign : Text → Bool × Text
  | .char '-' :: s => (true, s)
  | .char '+' :: s => (false, s)
  | s => (false, s)

def isDigitOrLine (c : CodePoint) : Bool := c.isDigit || c == '_'

/-- Two digits at most, the first of two up to five. -/
def isSixtieth : Text → Bool
  | [a] => a.isDigit
  | [a, b] => a.isDigit && a.within '0' '5' && b.isDigit
  | _ => false

/-- A plain digit, then digits and low lines. -/
def isDigits : Text → Bool
  | [] => false
  | c :: rest => c.isDigit && rest.all isDigitOrLine

/-- The form of a whole number without its sign. -/
def isWhole (s : Text) : Bool :=
  match s with
  | [.char '0'] => true
  | .char '0' :: .char 'b' :: rest =>
    !rest.isEmpty && rest.all fun c => c == '0' || c == '1' || c == '_'
  | .char '0' :: .char 'x' :: rest =>
    !rest.isEmpty && rest.all fun c => (Json.hexDigit? c).isSome || c == '_'
  | .char '0' :: rest => rest.all fun c => c.within '0' '7' || c == '_'
  | s =>
    match Text.split ':' s with
    | whole :: sixtieths => isDigits whole && sixtieths.all isSixtieth
    | [] => false

/-- An exponent with its sign, or nothing. -/
def isExponent : Text → Bool
  | [] => true
  | e :: sign :: digits =>
    (e == 'e' || e == 'E') && (sign == '-' || sign == '+') && !digits.isEmpty &&
      digits.all CodePoint.isDigit
  | _ => false

/-- The form of a decimal without its sign. -/
def isDecimal (signed : Bool) (s : Text) : Bool :=
  let (before, after) := Text.cut '.' s
  match after with
  | none => false
  | some after =>
    let fraction := after.takeWhile isDigitOrLine
    let rest := after.dropWhile isDigitOrLine
    if before.isEmpty then !signed && isDigits fraction && isExponent rest
    else
      match Text.split ':' before with
      | [whole] => isDigits whole && isExponent rest
      | whole :: sixtieths => isDigits whole && sixtieths.all isSixtieth && rest.isEmpty
      | [] => false

/-- The form of a date with all its digits, or of a date with a time of day. -/
def isMoment (s : Text) : Bool := (moment? s).any fun found => found.2 || s.length = 10

/-- The text without the line feed at its end, which does not count in what a scalar is spelled
like, unless it is all there is. -/
def withoutLastFeed (s : Text) : Text :=
  if s.length > 1 && s.getLast? = some (.char '\n') then s.dropLast else s

/-- The text is one of the words. -/
def isOneOf (text : Text) (words : List Text) : Bool := words.contains text

namespace Tag

/-- What a scalar is spelled like. -/
def ofSpelling (spelling : Text) : Tag :=
  let s := withoutLastFeed spelling
  let u := (unsign s).2
  if isOneOf s ["", "~", "null", "Null", "NULL"] then null
  else if isOneOf s ["yes", "Yes", "YES", "true", "True", "TRUE", "on", "On", "ON"] then truth
  else if isOneOf s ["no", "No", "NO", "false", "False", "FALSE", "off", "Off", "OFF"] then truth
  else if isOneOf u [".inf", ".Inf", ".INF"] || isOneOf s [".nan", ".NaN", ".NAN"] then decimal
  else if isDecimal (u.length < s.length) u then decimal
  else if isWhole u then whole
  else if s = "<<" then merge
  else if s = "=" then default
  else if isMoment s then moment
  else if isOneOf s ["!", "&", "*"] then unknown
  else text

/-- What the names of the tags for common kinds of values start with. -/
def commonStart : Text := "tag:yaml.org,2002:"

/-- The tags for common kinds of values, by what their names end with. -/
def common : List (Text × Tag) :=
  [("null", null), ("bool", truth), ("int", whole), ("float", decimal), ("timestamp", moment),
    ("str", text), ("seq", list), ("map", map), ("merge", merge), ("value", default)]

def ofName (name : Text) : Tag :=
  ((common.find? fun t => commonStart ++ t.1 = name).map (·.2)).getD unknown

end Tag
end RandomTables.Yaml
