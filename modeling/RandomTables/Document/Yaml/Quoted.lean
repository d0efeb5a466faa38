import RandomTables.Document.Json.Reader
import RandomTables.Document.Yaml.Cursor

/-!
# Quoted scalars

Between single quotes only the quote itself is doubled. Between double quotes a backslash starts an
escape, and hides the end of a line. The end of a line between two words counts as a space, and
further empty lines count as one line feed each.
-/
namespace RandomTables.Yaml

def escapeFor? : CodePoint → Option CodePoint
  | .char '0' => some '\x00'
  | .char 'a' => some '\x07'
  | .char 'b' => some '\x08'
  | .char 't' => some '\t'
  | .char '\t' => some '\t'
  | .char 'n' => some '\n'
  | .char 'v' => some '\x0b'
  | .char 'f' => some '\x0c'
  | .char 'r' => some '\r'
  | .char 'e' => some '\x1b'
  | .char ' ' => some ' '
  | .char '\x22' => some '\x22'
  | .char '\\' => some '\\'
  | .char '/' => some '/'
  | .char 'N' => some '\x85'
  | .char '_' => some '\xa0'
  | .char 'L' => some '\u2028'
  | .char 'P' => some '\u2029'
  | _ => none

/-- How many hexadecimal digits follow the letter of a numeric escape. -/
def escapeWidth? : CodePoint → Option Nat
  | .char 'x' => some 2
  | .char 'u' => some 4
  | .char 'U' => some 8
  | _ => none

def isCodePoint (n : Nat) : Bool := n < 0x110000

/-- The ends of lines from here on, with the spaces around them left out; nothing if a line starts
or ends a document. -/
def scalarBreaks? (tries : Nat) (c : Cursor) : Option (Text × Cursor) :=
  match tries with
  | 0 => none
  | tries + 1 =>
    if c.atSeparator then none
    else
      let c := c.dropWhile fun ch => ch == ' ' || ch == '\t'
      match c.lineBreak? with
      | none => some ([], c)
      | some (ch, c) => (scalarBreaks? tries c).map fun p => (ch :: p.1, p.2)

/-- The spaces and ends of lines between two words, folded. -/
def scalarSpaces? (tries : Nat) (c : Cursor) : Option (Text × Cursor) :=
  let (spaces, c) := c.takeWhile fun ch => ch == ' ' || ch == '\t'
  match c.rest with
  | [] => none
  | _ =>
    match c.lineBreak? with
    | none => some (spaces, c)
    | some (ch, c) => do
      let (breaks, c) ← scalarBreaks? tries c
      let gap : Text := if ch ≠ '\n' then [ch] else if breaks.isEmpty then [' '] else []
      some (gap ++ breaks, c)

/-- The code points of a quoted scalar up to its closing quote, and the place after the quote. A
code point beyond the last one ends the scalar at once. -/
def quotedPoints? (double : Bool) (tries : Nat) (c : Cursor) : Option (List Nat × Cursor) :=
  match tries with
  | 0 => none
  | tries + 1 =>
    let more (points : List Nat) (c : Cursor) : Option (List Nat × Cursor) :=
      (quotedPoints? double tries c).map fun p => (points ++ p.1, p.2)
    match c.rest with
    | [] => none
    | .char '\x27' :: .char '\x27' :: _ =>
      if double then more [0x27] c.next else more [0x27] (c.skip 2)
    | .char '\x27' :: _ => if double then more [0x27] c.next else some ([], c.next)
    | .char '\x22' :: _ => if double then some ([], c.next) else more [0x22] c.next
    | .char '\\' :: rest =>
      if !double then more [0x5c] c.next
      else
        match rest with
        | [] => none
        | ch :: digits =>
          match escapeFor? ch, escapeWidth? ch with
          | some meant, _ => more [meant.toNat] (c.skip 2)
          | none, some width => do
            let run := digits.take width
            if run.length < width then none
            let n ← Json.hexNumber? run
            if isCodePoint n then more [n] (c.skip (2 + width)) else some ([n], c)
          | none, none => do
            let (_, c) ← c.next.lineBreak?
            let (breaks, c) ← scalarBreaks? tries c
            more (breaks.map CodePoint.toNat) c
    | ch :: _ =>
      if isGap ch then do
        let (spaces, c) ← scalarSpaces? tries c
        more (spaces.map CodePoint.toNat) c
      else more [ch.toNat] c.next

/-- The code points of a quoted scalar that starts at its opening quote. -/
def quotedScalar? (double : Bool) (c : Cursor) : Option (List Nat × Cursor) :=
  quotedPoints? double (c.rest.length + 1) c.next

end RandomTables.Yaml
