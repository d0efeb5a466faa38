import RandomTables.Document.Basic

/-!
# Writing JSON

Values are written in ASCII: every other character of a string becomes an escape of four
hexadecimal digits, or two of them side by side. With an indent every item has a line of its own;
without one, items follow each other with a comma and a space between them.
-/
namespace RandomTables.Json

def unitEscape (n : Nat) : Text := "\\u" ++ Text.hex 4 n

/-- How one character is written between quotes. -/
def escapeChar (c : CodePoint) : Text :=
  if c = '\x22' || c = '\\' then ['\\', c]
  else if c = '\n' then ['\\', 'n']
  else if c = '\r' then ['\\', 'r']
  else if c = '\t' then ['\\', 't']
  else if c = '\x08' then ['\\', 'b']
  else if c = '\x0c' then ['\\', 'f']
  else if 32 ≤ c.toNat && c.toNat < 127 then [c]
  else if c.toNat < 0x10000 then unitEscape c.toNat
  else
    let n := c.toNat - 0x10000
    unitEscape (0xD800 + n / 0x400) ++ unitEscape (0xDC00 + n % 0x400)

def string (s : Text) : Text :=
  "\x22" ++ s.flatMap escapeChar ++ "\x22"

def double : Double → Text
  | .nan => "NaN"
  | .infinite negative => if negative then "-Infinity" else "Infinity"
  | d => d.text

def scalar : Scalar → Text
  | .null => "null"
  | .bool b => if b then "true" else "false"
  | .int n => Text.integer n
  | .float d => double d
  | .text s => string s
  | s => string s.display

def key : Scalar → Text
  | .text s => string s
  | s => string (scalar s)

/-- The layout of the lines: no lines at all, or an indent for every level. -/
structure Layout where
  indent : Option Nat
  level : Nat

namespace Layout

def inner (l : Layout) : Layout := { l with level := l.level + 1 }

/-- What stands before an item and at the end of its list. -/
def newline (l : Layout) : Text :=
  match l.indent with
  | none => ""
  | some n => "\n" ++ Text.copies (n * l.level) ' '

/-- What stands between two items. -/
def comma (l : Layout) : Text := if l.indent.isSome then "," ++ l.newline else ", "

end Layout

mutual

def value (l : Layout) : Document → Text
  | .scalar s => scalar s
  | .list [] => "[]"
  | .list (item :: rest) =>
    "[" ++ l.inner.newline ++ items l.inner (item :: rest) ++ l.newline ++ "]"
  | .map [] => "\x7b\x7d"
  | .map (e :: rest) =>
    "\x7b" ++ l.inner.newline ++ members l.inner (e :: rest) ++ l.newline ++ "\x7d"

def items (l : Layout) : List Document → Text
  | [] => ""
  | [item] => value l item
  | item :: rest => value l item ++ l.comma ++ items l rest

def members (l : Layout) : List (Scalar × Document) → Text
  | [] => ""
  | [(k, v)] => key k ++ ": " ++ value l v
  | (k, v) :: rest => key k ++ ": " ++ value l v ++ l.comma ++ members l rest

end

/-- A value on one line, or on several with an indent. -/
def print (indent : Option Nat) (d : Document) : Text := value ⟨indent, 0⟩ d

end RandomTables.Json
