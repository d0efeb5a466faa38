import RandomTables.Reference

/-!
# Templates

A template is a line of text with markers in it. Read, it is a list of components: plain text,
placeholders that are filled in with values, values computed when the row is rolled, blocks that
appear by chance, and references to further tables.
-/
namespace RandomTables

/-- A change of letter case. -/
inductive TextTransform where
  | lowercase
  | uppercase
  | capitalize
  | title
  deriving Repr, DecidableEq, Inhabited

namespace TextTransform

def name : TextTransform → Text
  | lowercase => "lowercase"
  | uppercase => "uppercase"
  | capitalize => "capitalize"
  | title => "title"

def ofName? (name : Text) : Option TextTransform :=
  [lowercase, uppercase, capitalize, title].find? fun t => t.name = name

def unknownMessage (name : Text) : Text := Text.quoted name ++ " is not a valid TextTransform"

def apply (t : TextTransform) (s : Text) : Text :=
  match t with
  | lowercase => Text.lower s
  | uppercase => Text.upper s
  | capitalize => Text.capitalize s
  | title => Text.title s

@[simp] theorem ofName?_name (t : TextTransform) : ofName? t.name = some t := by
  cases t <;> decide

end TextTransform

/-- A place that is filled in with one of the values under a key. Which one is written with digits
alone, so its number is never below zero. -/
structure Placeholder where
  key : Text
  color : Option Text
  background : Option Text
  transform : Option TextTransform
  index : Nat
  deriving Repr, DecidableEq, Inhabited

/-- A part of a template. A chance is written with digits alone, so it is never below zero. -/
inductive Component where
  | plain (text : Text)
  | input (placeholder : Placeholder)
  | computed (name : Text) (expr : Dice.Expr)
  | percent (chance : Nat) (label : Text) (inner : List Component)
  | reference (ref : Reference) (name : Option Text)
  deriving Repr, Inhabited

end RandomTables
