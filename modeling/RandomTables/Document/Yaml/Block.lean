import RandomTables.Document.Yaml.Cursor

/-!
# Block scalars

A bar starts a scalar that keeps its lines; a greater-than sign starts one whose lines are folded.
The lines are indented further than their surroundings, by as much as the first line that is not
empty unless the head says by how much. What becomes of the line ends at the end of the scalar is up
to the head as well: the first one is kept, none is kept, or all are.
-/
namespace RandomTables.Yaml

/-- What becomes of the line ends after the last line. -/
inductive Chomping where
  | clip
  | strip
  | keep
  deriving Repr, DecidableEq

def chompingOf? : CodePoint → Option Chomping
  | .char '+' => some .keep
  | .char '-' => some .strip
  | _ => none

/-- The indentation that a digit asks for; zero is none. -/
def indentationOf? (c : CodePoint) : Option Nat :=
  if c.within '1' '9' then some (c.toNat - '0'.toNat) else none

/-- The signs after the bar: chomping and indentation in either order. -/
def blockHead? (c : Cursor) : Option (Chomping × Option Nat × Cursor) :=
  let done (chomping : Chomping) (indentation : Option Nat) (c : Cursor) :
      Option (Chomping × Option Nat × Cursor) :=
    if atSpaceOrBreak c.rest then some (chomping, indentation, c) else none
  match c.rest with
  | [] => done .clip none c
  | a :: rest =>
    match chompingOf? a with
    | some chomping =>
      match rest.head?.bind indentationOf? with
      | some n => done chomping (some n) (c.skip 2)
      | none => done chomping none c.next
    | none =>
      match indentationOf? a with
      | none => done .clip none c
      | some n =>
        match rest.head?.bind chompingOf? with
        | some chomping => done chomping (some n) (c.skip 2)
        | none => done .clip (some n) c.next

/-- The place after the rest of a head line, which may hold a comment. -/
def afterHeadLine? (c : Cursor) : Option Cursor :=
  let c := (c.dropWhile (· == ' ')).skipComment
  if atBreak c.rest then some ((c.lineBreak?.map (·.2)).getD c) else none

/-- The line ends before the first line with text, and the widest column reached on the way. -/
def leadingBreaks : (tries widest : Nat) → Cursor → Text × Nat × Cursor
  | 0, widest, c => ([], widest, c)
  | tries + 1, widest, c =>
    match c.lineBreak? with
    | some (ch, next) =>
      let (breaks, widest, c) := leadingBreaks tries widest next
      (ch :: breaks, widest, c)
    | none =>
      if c.rest.head? = some (.char ' ') then leadingBreaks tries (max widest c.next.column) c.next
      else ([], widest, c)

/-- The place after at most so many spaces as lead to the column `indent`. -/
def skipIndent (indent : Nat) : (tries : Nat) → Cursor → Cursor
  | 0, c => c
  | tries + 1, c =>
    if c.column < indent && c.rest.head? = some (.char ' ') then skipIndent indent tries c.next
    else c

/-- The line ends up to the next line with text, whose indentation is skipped. -/
def innerBreaks (indent : Nat) : (tries : Nat) → Cursor → Text × Cursor
  | 0, c => ([], c)
  | tries + 1, c =>
    let c := skipIndent indent indent c
    match c.lineBreak? with
    | none => ([], c)
    | some (ch, next) =>
      let (breaks, c) := innerBreaks indent tries next
      (ch :: breaks, c)

/-- What stands between two lines of a block. -/
def between (folded : Bool) (ending breaks first next : Text) : Text :=
  let flush (s : Text) : Bool := match s with
    | .char ' ' :: _ | .char '\t' :: _ => false
    | _ => true
  if folded && ending = "\n" && flush first && flush next then
    (if breaks.isEmpty then " " else "") ++ breaks
  else ending ++ breaks

/-- The lines of a block from here on: their text, the end of the last line and the line ends after
it, and the place after the block. -/
def blockLines (folded : Bool) (indent : Nat) :
    (tries : Nat) → Cursor → Text × Text × Text × Cursor
  | 0, c => ([], [], [], c)
  | tries + 1, c =>
    let (line, after) := c.takeWhile (!isBreak ·)
    let (ending, after) := match after.lineBreak? with
      | some (ch, next) => ([ch], next)
      | none => ([], after)
    let (breaks, after) := innerBreaks indent tries after
    if after.column = indent && !after.rest.isEmpty then
      let (text, last, trailing, done) := blockLines folded indent tries after
      (line ++ between folded ending breaks line after.rest ++ text, last, trailing, done)
    else (line, ending, breaks, after)

/-- A block scalar that starts at its bar, inside a block at column `indent`. -/
def blockScalar? (folded : Bool) (indent : Int) (c : Cursor) : Option (Text × Cursor) := do
  let tries := c.rest.length + 1
  let (chomping, indentation, c) ← blockHead? c.next
  let c ← afterHeadLine? c
  let least := (max (indent + 1) 1).toNat
  let (breaks, column, c) := match indentation with
    | some n =>
      let column := least + n - 1
      let (breaks, c) := innerBreaks column tries c
      (breaks, column, c)
    | none =>
      let (breaks, widest, c) := leadingBreaks tries 0 c
      (breaks, max least widest, c)
  let tail (last trailing : Text) : Text := match chomping with
    | .clip => last
    | .strip => []
    | .keep => last ++ trailing
  if c.column = column && !c.rest.isEmpty then
    let (text, last, trailing, c) := blockLines folded column tries c
    some (breaks ++ text ++ tail last trailing, c)
  else some (tail [] breaks, c)

end RandomTables.Yaml
