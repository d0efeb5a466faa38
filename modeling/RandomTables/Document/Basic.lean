import RandomTables.Bindings
import RandomTables.Decimal.Shortest
import RandomTables.Text.Quoted
import RandomTables.Timestamp

/-!
# Documents

What a table file or an option holds once it is decoded: scalars, lists, and maps whose keys are
scalars and keep the order in which they first appeared. `literal` is the text of a value inside a
message, where strings stand between quotes; `display` is the text of a value on its own.
-/
namespace RandomTables

/-- A value without parts. -/
inductive Scalar where
  | null
  | bool (value : Bool)
  | int (value : Int)
  | float (value : Double)
  | text (value : Text)
  | moment (value : Timestamp) (timed : Bool)
  deriving Repr, DecidableEq, Inhabited

/-- A decoded value. -/
inductive Document where
  | scalar (value : Scalar)
  | list (items : List Document)
  | map (entries : List (Scalar × Document))
  deriving Repr, Inhabited

namespace Scalar

/-- A date or a date with a time of day inside a message. -/
def momentLiteral (t : Timestamp) (timed : Bool) : Text :=
  let date := [t.year, t.month, t.day].map Text.natural
  let clock := [t.hour, t.minute] ++
    (if t.microsecond ≠ 0 then [t.second, t.microsecond]
    else if t.second ≠ 0 then [t.second] else [])
  let zone := match t.offset with
    | none => []
    | some gap =>
      let name : Text := if gap = 0 then ".utc" else "(" ++ Timestamp.lengthText gap ++ ")"
      ["tzinfo=datetime.timezone" ++ name]
  if timed then
    "datetime.datetime(" ++ Text.joinWith ", " (date ++ clock.map Text.natural ++ zone) ++ ")"
  else "datetime.date(" ++ Text.joinWith ", " date ++ ")"

/-- A date, or a date and a time of day with a space between them. -/
def momentText (t : Timestamp) (timed : Bool) : Text :=
  if timed then t.text.take 10 ++ " " ++ t.text.drop 11 else t.text.take 10

/-- The text of a scalar inside a message. -/
def literal : Scalar → Text
  | null => "None"
  | bool value => if value then "True" else "False"
  | int value => Text.integer value
  | float value => value.text
  | text value => Text.quoted value
  | moment value timed => momentLiteral value timed

/-- The text of a scalar on its own. -/
def display : Scalar → Text
  | text value => value
  | moment value timed => momentText value timed
  | s => s.literal

/-- The whole number that the scalar counts as when keys are compared. -/
def asInt? : Scalar → Option Int
  | bool value => some (if value then 1 else 0)
  | int value => some value
  | float value => value.toInt?
  | _ => none

/-- The instant that a timestamp with a known distance from universal time stands for. -/
def instant? : Scalar → Option Int
  | moment value true => value.instant?
  | _ => none

/-- Two keys are the same one: equal scalars, truth values and numbers of equal value, or timestamps
of one instant. -/
def sameKey (a b : Scalar) : Bool :=
  match a.asInt?, b.asInt?, a.instant?, b.instant? with
  | some m, some n, _, _ => m == n
  | _, _, some s, some t => s == t
  | _, _, _, _ => decide (a = b)

/-- The scalar counts as set: not null, false, zero or empty. -/
def isSet : Scalar → Bool
  | null => false
  | bool value => value
  | int value => value != 0
  | float value => !value.isZero
  | text value => !value.isEmpty
  | moment .. => true

/-- The kind of the scalar as messages name it. -/
def kindName : Scalar → Text
  | null => "NoneType"
  | bool _ => "bool"
  | int _ => "int"
  | float _ => "float"
  | text _ => "str"
  | moment _ timed => if timed then "datetime" else "date"

end Scalar

namespace Document

mutual

/-- Whether two values are the same one. -/
instance decEq : (a b : Document) → Decidable (a = b)
  | scalar a, scalar b => decidable_of_iff (a = b) (by simp)
  | list a, list b =>
    have := decEqItems a b
    decidable_of_iff (a = b) (by simp)
  | map a, map b =>
    have := decEqEntries a b
    decidable_of_iff (a = b) (by simp)
  | scalar _, list _ | scalar _, map _ | list _, scalar _ | list _, map _ | map _, scalar _
  | map _, list _ => .isFalse nofun

def decEqItems : (a b : List Document) → Decidable (a = b)
  | [], [] => .isTrue rfl
  | a :: as, b :: bs =>
    have := decEq a b
    have := decEqItems as bs
    decidable_of_iff (a = b ∧ as = bs) (by simp)
  | [], _ :: _ | _ :: _, [] => .isFalse nofun

/-- The same for keys and values. -/
def decEqEntries : (a b : List (Scalar × Document)) → Decidable (a = b)
  | [], [] => .isTrue rfl
  | (k, v) :: as, (l, w) :: bs =>
    have := decEq v w
    have := decEqEntries as bs
    decidable_of_iff (k = l ∧ v = w ∧ as = bs) (by simp [and_assoc])
  | [], _ :: _ | _ :: _, [] => .isFalse nofun

end

/-- The empty value. -/
abbrev null : Document := scalar .null

/-- A string as a value. -/
abbrev text (s : Text) : Document := scalar (.text s)

/-- A whole number as a value. -/
abbrev int (n : Int) : Document := scalar (.int n)

mutual

/-- The text of a value inside a message. -/
def literal : Document → Text
  | scalar value => value.literal
  | list items => "[" ++ literalItems items ++ "]"
  | map entries => "\x7b" ++ literalEntries entries ++ "\x7d"

/-- Items with a comma between neighbours. -/
def literalItems : List Document → Text
  | [] => ""
  | [item] => item.literal
  | item :: rest => item.literal ++ ", " ++ literalItems rest

/-- Keys and values with a comma between neighbours. -/
def literalEntries : List (Scalar × Document) → Text
  | [] => ""
  | [(key, value)] => key.literal ++ ": " ++ value.literal
  | (key, value) :: rest => key.literal ++ ": " ++ value.literal ++ ", " ++ literalEntries rest

end

/-- The text of a value on its own. -/
def display : Document → Text
  | scalar value => value.display
  | d => d.literal

/-- The value counts as set: not null, false, zero or empty. -/
def isSet : Document → Bool
  | scalar value => value.isSet
  | list items => !items.isEmpty
  | map entries => !entries.isEmpty

/-- The value is the empty one. -/
def isNull : Document → Bool
  | scalar .null => true
  | _ => false

def kindName : Document → Text
  | scalar value => value.kindName
  | list _ => "list"
  | map _ => "dict"

/-- Put a value under a key, in the place of an equal key if there is one. -/
def putEntry (key : Scalar) (value : Document) :
    List (Scalar × Document) → List (Scalar × Document)
  | [] => [(key, value)]
  | (k, old) :: rest =>
    if k.sameKey key then (k, value) :: rest else (k, old) :: putEntry key value rest

/-- The map that entries make when they are put in turn, so that the last of equal keys counts. -/
def ofEntries (entries : List (Scalar × Document)) : Document :=
  map (entries.foldl (fun done e => putEntry e.1 e.2 done) [])

/-- The value under a string key. -/
def entry? (entries : List (Scalar × Document)) (key : Text) : Option Document :=
  (entries.find? fun e => e.1 == Scalar.text key).map (·.2)

/-- The value under a string key, if it is there and not null. -/
def present? (entries : List (Scalar × Document)) (key : Text) : Option Document :=
  match entry? entries key with
  | some (scalar .null) => none
  | found => found

/-- The items of a list of whole numbers as a value. -/
def ofInts (values : List Int) : Document := list (values.map int)

/-- A map with string keys. -/
def record (fields : List (Text × Document)) : Document :=
  map (fields.map fun f => (.text f.1, f.2))

/-- The whole number that the value counts as; a truth value counts as one or zero. -/
def wholeNumber? : Document → Option Int
  | scalar (.int n) => some n
  | scalar (.bool b) => some (if b then 1 else 0)
  | _ => none

/-- The value is a number of any kind; truth values count as numbers. -/
def isNumber : Document → Bool
  | scalar (.int _) | scalar (.bool _) | scalar (.float _) => true
  | _ => false

/-- The parts that a value falls into: the items of a list, the characters of a string, the keys of
a map. -/
def parts? : Document → Option (List Document)
  | list items => some items
  | map entries => some (entries.map fun e => scalar e.1)
  | scalar (.text s) => some (s.map fun c => text [c])
  | scalar _ => none

end Document
end RandomTables
