import RandomTables.Text.Basic

/-!
# Places in a text

The unread rest of a text with the line and column it starts at. Columns decide how blocks nest, so
every step that takes characters keeps count.
-/
namespace RandomTables.Yaml

/-- The unread rest of a text and where it starts. -/
structure Cursor where
  rest : Text
  index : Nat
  line : Nat
  column : Nat
  deriving Inhabited

/-- A character that ends a line. -/
def isBreak (c : CodePoint) : Bool :=
  c == '\n' || c == '\r' || c == '\x85' || c == '\u2028' || c == '\u2029'

/-- A space, a tab or the end of a line. -/
def isGap (c : CodePoint) : Bool := c == ' ' || c == '\t' || isBreak c

/-- The text is at its end or goes on with a space, a tab or the end of a line. -/
def atGap : Text → Bool
  | [] => true
  | c :: _ => isGap c

/-- The text is at its end or at the end of a line. -/
def atBreak : Text → Bool
  | [] => true
  | c :: _ => isBreak c

/-- The text is at its end, at a space, or at the end of a line. -/
def atSpaceOrBreak : Text → Bool
  | [] => true
  | c :: _ => c == ' ' || isBreak c

/-- The byte order mark, which takes no column. -/
def byteOrderMark : CodePoint := '\uFEFF'

namespace Cursor

def start (s : Text) : Cursor := ⟨s, 0, 0, 0⟩

/-- The place after one character. -/
def next (c : Cursor) : Cursor :=
  match c.rest with
  | [] => c
  | ch :: rest =>
    if isBreak ch && !(ch == '\r' && rest.head? == some (.char '\n')) then
      ⟨rest, c.index + 1, c.line + 1, 0⟩
    else
      ⟨rest, c.index + 1, c.line, if ch == byteOrderMark then c.column else c.column + 1⟩

/-- The place after `n` characters. -/
def skip (c : Cursor) : Nat → Cursor
  | 0 => c
  | n + 1 => c.next.skip n

/-- The characters from here on that satisfy `p`, and the place after them. -/
def takeWhile (c : Cursor) (p : CodePoint → Bool) : Text × Cursor :=
  let run := c.rest.takeWhile p
  (run, c.skip run.length)

/-- The place after the characters from here on that satisfy `p`. -/
def dropWhile (c : Cursor) (p : CodePoint → Bool) : Cursor := (c.takeWhile p).2

/-- The end of a line as the text counts it, and the place after it. -/
def lineBreak? (c : Cursor) : Option (CodePoint × Cursor) :=
  match c.rest with
  | .char '\r' :: .char '\n' :: _ => some ('\n', c.skip 2)
  | ch :: _ =>
    if ch == '\u2028' || ch == '\u2029' then some (ch, c.next)
    else if isBreak ch then some ('\n', c.next)
    else none
  | [] => none

/-- A line here starts or ends a document. -/
def atMark (c : Cursor) (mark : CodePoint) : Bool :=
  [mark, mark, mark].isPrefixOf c.rest && atGap (c.rest.drop 3)

/-- A line here separates documents. -/
def atSeparator (c : Cursor) : Bool := c.atMark '-' || c.atMark '.'

/-- The place after a comment that starts here, at the end of its line. -/
def skipComment (c : Cursor) : Cursor :=
  if c.rest.head? = some (.char '#') then c.dropWhile (!isBreak ·) else c

end Cursor
end RandomTables.Yaml
