import RandomTables.Instructions

/-!
# References

A reference names the rollable it points to by a path, as it is written in the definition, and says
how to roll it. As text it is the path followed by options, with a bar in front of each; an option
without a value is switched on.
-/
namespace RandomTables

/-- A path as written, and how to roll what it points to. -/
structure Reference where
  path : Text
  instructions : Instructions
  deriving Repr, DecidableEq, Inhabited

namespace Reference

/-- A reference without options. -/
def toPath (path : Text) : Reference := ⟨path, .plain⟩

/-- The title that the reference gives to what it points to. -/
def title (r : Reference) : Option Text := r.instructions.title

/-- An option's name and value as written between two bars; nothing if it is blank. -/
def optionOf? (s : Text) : Option (Scalar × Document) :=
  let s := Text.trim s
  if s.isEmpty then none
  else
    let (name, value) := Text.cut '=' s
    let value : Document := match value with
      | none => .scalar (.bool true)
      | some value => .text (Text.trim value)
    some (.text (Text.trim name), value)

/-- The options in the pieces between bars; the last of equal names counts. -/
def optionsOf (pieces : List Text) : List (Scalar × Document) :=
  (pieces.filterMap optionOf?).foldl (fun done e => Document.putEntry e.1 e.2 done) []

/-- The reference that a text describes. -/
def ofText (s : Text) : Except OptionFault Reference :=
  match Text.split '|' s with
  | [] => .ok (toPath "")
  | path :: options =>
    (Instructions.ofOptions (optionsOf options)).map fun instructions =>
      ⟨Text.trim path, instructions⟩

end Reference
end RandomTables
