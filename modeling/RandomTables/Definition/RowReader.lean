import RandomTables.Definition.Basic
import RandomTables.Template.Reader
import RandomTables.Text.Line

/-!
# Reading rows

A row is a line of text. It may start with a number or two numbers and a bar, which give the totals
it is selected by; otherwise its place among the rows that are not blank is its total.
-/
namespace RandomTables.Row

/-- The numbers in front of a row: the bounds, where the first one starts, and where the template
starts. -/
structure Head where
  low : Nat
  high : Nat
  numberStart : Nat
  bodyStart : Nat
  deriving Repr, DecidableEq

/-- The digits that a text starts with, as a number, and what follows the blanks after them. -/
def bound? (s : Text) : Option (Nat × Text) :=
  (Text.numeral? (s.takeWhile Text.isDecimal)).map fun n =>
    (n, Text.trimStart (s.dropWhile Text.isDecimal))

/-- The bounds at the start of a line, if it declares any. -/
def head? (line : Text) : Option Head := do
  let s := Text.trimStart line
  let start := line.length - s.length
  let (low, rest) ← bound? s
  let (high, rest) ←
    match rest with
    | .char '-' :: more => bound? (Text.trimStart more)
    | rest => some (low, rest)
  match rest with
  | .char '|' :: body => some ⟨low, high, start, line.length - body.length⟩
  | _ => none

/-- The row on a line that is row number `position` of its table. -/
def read (line : Text) (position : Int) : Except TemplateError Row :=
  match head? line with
  | some head =>
    match RowRange.ofBounds? head.low head.high with
    | none => .error (.malformed head.numberStart (.emptyRange head.low head.high))
    | some range =>
      (Template.read (line.drop head.bodyStart) head.bodyStart).map fun template =>
        ⟨template, range, line⟩
  | none =>
    (Template.read line 0).map fun template => ⟨template, .single position, line⟩

/-- The rows on lines that are not blank, where the first is number `position`. -/
def readFrom (position : Nat) : List Text → Except TemplateError (List Row)
  | [] => .ok []
  | line :: rest =>
    match read line position with
    | .error (.malformed at_ fault) => .error (.malformed at_ (.inRow position fault))
    | .error (.numeral run) => .error (.numeral run)
    | .ok row => (readFrom (position + 1) rest).map fun rows => row :: rows

/-- The rows on some lines; blank lines do not count. -/
def readAll (lines : List Text) : Except TemplateError (List Row) :=
  readFrom 1 (lines.filter fun line => !Text.allBlank line)

/-- The lines of a value: those of a string, or the items of a list as text. -/
def linesOf? : Document → Option (List Text)
  | .scalar (.text s) => some (Text.lines s)
  | .list items => some (items.map fun item => item.display)
  | _ => none

end RandomTables.Row
