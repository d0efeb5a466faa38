import RandomTables.Definition.RowReader
import RandomTables.Path

/-!
# Definitions from documents

A document with rows is a table and one with a list of references is a bundle. What is wrong with a
document is reported with the path the definition was to have. Two faults are reported without one:
a run of digit signs that denotes no number, and an option whose name is no string.
-/
namespace RandomTables

/-- What is wrong with a document. -/
inductive DefinitionFault where
  | noMap
  | rowsAndBundle
  | neitherRowsNorBundle
  | rowsShape
  | rows (position : Int) (fault : TemplateFault)
  | noRows
  | dice (found : Document) (position : Int) (fault : Dice.Fault)
  | inputsShape
  | extra (position : Int) (fault : TemplateFault)
  | bundleShape
  | referenceText (found : Document) (fault : TemplateFault)
  | referencePath (found : Document)
  | referenceOption (found : Document) (fault : OptionFault)
  | referenceShape (found : Document)
  deriving Repr, Inhabited

/-- The wording of an option's fault in a map, where the option is not named again. -/
def OptionFault.mapMessage : OptionFault → Text
  | dice (.malformed _ fault) => fault.message
  | fault => fault.message

def DefinitionFault.message : DefinitionFault → Text
  | noMap => "document must be a mapping"
  | rowsAndBundle => "a definition cannot have both rows and bundle"
  | neitherRowsNorBundle => "document needs either rows or bundle"
  | rowsShape => "rows must be text or a list"
  | rows position fault => Dice.atPosition fault.message position
  | noRows => "table has no rows"
  | dice found position fault =>
    "invalid dice " ++ found.literal ++ ": " ++ Dice.atPosition fault.message position
  | inputsShape => "inputs must be a mapping of key to reference"
  | extra position fault => "extra: " ++ Dice.atPosition fault.message position
  | bundleShape => "bundle must be a list of references"
  | referenceText found fault => "invalid reference " ++ found.literal ++ ": " ++ fault.message
  | referencePath found => "reference " ++ found.literal ++ " has no path"
  | referenceOption found fault =>
    "invalid reference " ++ found.literal ++ ": " ++ fault.mapMessage
  | referenceShape found => "reference must be a string or mapping, got " ++ found.kindName

/-- Why a document is no definition. -/
inductive DefinitionError where
  | malformed (path : Text) (fault : DefinitionFault)
  | numeral (run : Text)
  | unnamedOption
  deriving Repr, Inhabited

def DefinitionError.message : DefinitionError → Text
  | malformed path fault => path ++ ": " ++ fault.message
  | numeral run => Dice.numeralMessage run
  | unnamedOption => OptionFault.unnamed.message

namespace Reference

/-- The reference that a value describes in the definition at `path`: a text, or a map with a path
and options. -/
def ofDocument (path : Text) (raw : Document) : Except DefinitionError Reference :=
  match raw with
  | .scalar (.text s) =>
    match Template.readReference s with
    | .ok ref => .ok ref
    | .error (.malformed _ fault) => .error (.malformed path (.referenceText raw fault))
    | .error (.numeral run) => .error (.numeral run)
  | .map entries =>
    match (Document.entry? entries "path").filter Document.isSet with
    | none => .error (.malformed path (.referencePath raw))
    | some target =>
      match Instructions.ofOptions (entries.filter fun e => e.1 != .text "path") with
      | .ok instructions => .ok ⟨Text.trim target.display, instructions⟩
      | .error .unnamed => .error .unnamedOption
      | .error fault => .error (.malformed path (.referenceOption raw fault))
  | _ => .error (.malformed path (.referenceShape raw))

/-- The references that the values of a list describe, in order. -/
def ofDocuments (path : Text) : List Document → Except DefinitionError (List Reference)
  | [] => .ok []
  | raw :: rest => do
    let ref ← ofDocument path raw
    let refs ← ofDocuments path rest
    return ref :: refs

end Reference

namespace Definition

/-- A die with as many sides as the highest total of a row. -/
def defaultDice (path : Text) : List Row → Except DefinitionError Dice.Expr
  | [] => .error (.malformed path .noRows)
  | row :: rows =>
    let highest := rows.foldl (fun high r => max high r.range.max) row.range.max
    .ok (.dice 1 highest false)

/-- The rows under their key; a missing value counts as empty text. -/
def rowsOf (path : Text) (entries : List (Scalar × Document)) :
    Except DefinitionError (List Row) :=
  match Row.linesOf? ((Document.present? entries "rows").getD (.text "")) with
  | none => .error (.malformed path .rowsShape)
  | some lines =>
    match Row.readAll lines with
    | .ok rows => .ok rows
    | .error (.malformed position fault) => .error (.malformed path (.rows position fault))
    | .error (.numeral run) => .error (.numeral run)

/-- The dice under their key, or the die that fits the rows. -/
def diceOf (path : Text) (entries : List (Scalar × Document)) (rows : List Row) :
    Except DefinitionError Dice.Expr :=
  match Document.present? entries "dice" with
  | none => defaultDice path rows
  | some found =>
    match Dice.Expr.read found.display 0 with
    | .ok e => .ok e
    | .error (.malformed position fault) => .error (.malformed path (.dice found position fault))
    | .error (.numeral run) => .error (.numeral run)

/-- The references under the keys of a map, in order. -/
def inputEntries (path : Text) (inputs : Bindings Reference) :
    List (Scalar × Document) → Except DefinitionError (Bindings Reference)
  | [] => .ok inputs
  | (key, raw) :: rest => do
    let ref ← Reference.ofDocument path raw
    inputEntries path (inputs.set key.display ref) rest

def inputsOf (path : Text) (entries : List (Scalar × Document)) :
    Except DefinitionError (Bindings Reference) :=
  match (Document.entry? entries "inputs").filter Document.isSet with
  | none => .ok .empty
  | some (.map inputs) => inputEntries path .empty inputs
  | some _ => .error (.malformed path .inputsShape)

def extraOf (path : Text) (entries : List (Scalar × Document)) :
    Except DefinitionError (Option (List Component)) :=
  match Document.present? entries "extra" with
  | none => .ok none
  | some found =>
    match Template.read found.display 0 with
    | .ok template => .ok (some template)
    | .error (.malformed position fault) => .error (.malformed path (.extra position fault))
    | .error (.numeral run) => .error (.numeral run)

def tableOf (path title : Text) (entries : List (Scalar × Document)) :
    Except DefinitionError Table := do
  let rows ← rowsOf path entries
  let dice ← diceOf path entries rows
  let inputs ← inputsOf path entries
  let extra ← extraOf path entries
  return ⟨path, title, dice, rows, inputs, extra⟩

def bundleOf (path title : Text) (entries : List (Scalar × Document)) :
    Except DefinitionError Bundle :=
  match Document.entry? entries "bundle" with
  | some (.list refs) => (Reference.ofDocuments path refs).map fun refs => ⟨path, title, refs⟩
  | _ => .error (.malformed path .bundleShape)

/-- The title under its key if it is set, or else the last segment of the path. -/
def titleOf (path : Text) (entries : List (Scalar × Document)) : Text :=
  match (Document.entry? entries "title").filter Document.isSet with
  | some title => title.display
  | none => Path.lastSegment path

/-- The definition that a document describes. -/
def ofDocument (path : Text) : Document → Except DefinitionError Definition
  | .map entries =>
    let title := titleOf path entries
    let hasRows := (Document.entry? entries "rows").isSome
    if (Document.entry? entries "bundle").isSome then
      if hasRows then .error (.malformed path .rowsAndBundle)
      else (bundleOf path title entries).map .bundle
    else if hasRows then (tableOf path title entries).map .table
    else .error (.malformed path .neitherRowsNorBundle)
  | _ => .error (.malformed path .noMap)

end Definition
end RandomTables
