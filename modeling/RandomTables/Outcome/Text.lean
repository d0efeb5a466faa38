import RandomTables.Outcome.Basic

/-!
# The text of an outcome

Every row or child of a node has a text. A node's own text is made of those that are not empty, each
on a line of its own, or, inside another row, with commas between them. A leaf has no text.
-/
namespace RandomTables

/-- The parts that are not empty, with a separator between them. -/
def joinParts (separator : Text) (parts : List Text) : Text :=
  Text.joinWith separator (parts.filter fun part => !part.isEmpty)

def inlineParts (parts : List Text) : Text := joinParts ", " parts

mutual

/-- The texts that a node's own text is made of. -/
def Node.parts : Node → List Text
  | .table ⟨_, _, rows, extra, extraNodes, _⟩ =>
    rowTexts rows ++
      if extra.isEmpty then [] else [Resolved.writeAll (inlineTexts extraNodes) extra]
  | .bundle ⟨_, _, repeats⟩ => repeatTexts repeats
  | .leaf _ _ => []

def RowRoll.text : RowRoll → Text
  | .missing total => "(no row for " ++ Text.integer total ++ ")"
  | .found ⟨_, _, text, nested, _, _⟩ => Resolved.writeAll (inlineTexts nested) text

def rowTexts : List RowRoll → List Text
  | [] => []
  | row :: rest => row.text :: rowTexts rest

def inlineTexts : List Node → List Text
  | [] => []
  | node :: rest => inlineParts node.parts :: inlineTexts rest

def repeatTexts : List (List Node) → List Text
  | [] => []
  | nodes :: rest => inlineTexts nodes ++ repeatTexts rest

end

namespace Node

def inlineText (node : Node) : Text := inlineParts node.parts

def text (node : Node) : Text := joinParts "\n" node.parts

/-- The text of every row of a table, or of every child of a bundle. -/
def rowTexts : Node → List Text
  | table roll => RandomTables.rowTexts roll.rows
  | bundle roll => repeatTexts roll.repeats
  | leaf _ _ => []

end Node

theorem inlineTexts_eq_map (nodes : List Node) : inlineTexts nodes = nodes.map Node.inlineText := by
  induction nodes with
  | nil => rfl
  | cons node rest ih => simp [inlineTexts, Node.inlineText, ih]

end RandomTables
