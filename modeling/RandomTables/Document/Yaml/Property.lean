import RandomTables.Document.Json.Reader
import RandomTables.Document.Yaml.Cursor

/-!
# Properties

In front of a node may stand an anchor, which names the node for later places, and a tag, which
says what it is to be read as. The name of a tag is given whole, or as a handle and the rest of the
name. Directives in front of a document say what handles stand for.
-/
namespace RandomTables.Yaml

/-- A tag as it is written: its whole name, or a handle and the rest of the name. -/
structure WrittenTag where
  handle : Option Text
  rest : Text
  deriving Repr, DecidableEq, Inhabited

/-- What stands in front of a node. -/
structure Properties where
  anchor : Option Text
  tag : Option WrittenTag
  deriving Repr, DecidableEq, Inhabited

/-- A line in front of a document: the version of the format, or what a handle stands for. Others
have no meaning. -/
inductive Directive where
  | version (major : Nat)
  | handle (name start : Text)
  | other
  deriving Repr, DecidableEq, Inhabited

/-- A character in the name of an anchor, a handle or a directive. -/
def isNamePart (c : CodePoint) : Bool := c.isAlphanum || c == '-' || c == '_'

/-- A character in the name of a tag that stands for itself. -/
def isTagPart (c : CodePoint) : Bool :=
  c.isAlphanum || Text.holds "-;/?:@&=+$,_.!~*\x27()[]" c

/-- The bytes of a tag's name from here on, and what follows them. A percent sign and two
hexadecimal digits are one byte. -/
def tagBytes? : Text → Option (List UInt8 × Text)
  | .char '%' :: a :: b :: rest => do
    let byte ← Json.hexNumber? [a, b]
    let (bytes, rest) ← tagBytes? rest
    some (.ofNat byte :: bytes, rest)
  | c :: rest =>
    if c == '%' then none
    else if isTagPart c then do
      let (bytes, rest) ← tagBytes? rest
      some (.ofNat c.toNat :: bytes, rest)
    else some ([], c :: rest)
  | [] => some ([], [])

namespace Cursor

/-- The place after a character that has to come next. -/
def after? (c : Cursor) (mark : CodePoint) : Option Cursor :=
  if c.rest.head? = some mark then some c.next else none

/-- The name of a tag, which is not empty and has to be text once its bytes are put together. -/
def tagName? (c : Cursor) : Option (Text × Cursor) := do
  let (bytes, rest) ← tagBytes? c.rest
  let name ← String.fromUTF8? ⟨bytes.toArray⟩
  if bytes.isEmpty then none else some (name, c.skip (c.rest.length - rest.length))

/-- The handle of a tag: one exclamation mark in front of a space, or a name between two. -/
def handle? (c : Cursor) : Option (Text × Cursor) := do
  let inside ← c.after? '!'
  let (name, after) := inside.takeWhile isNamePart
  if name.isEmpty && after.rest.head? = some (.char ' ') then some ("!", after)
  else (after.after? '!').map fun after => ("!" ++ name ++ "!", after)

/-- A tag at its first exclamation mark. -/
def tag? (c : Cursor) : Option (WrittenTag × Cursor) := do
  let rest := c.next.rest
  let (tag, after) ←
    if rest.head? = some (.char '<') then do
      let (name, after) ← (c.skip 2).tagName?
      (after.after? '>').map fun after => (⟨none, name⟩, after)
    else if atGap rest then some (WrittenTag.mk none "!", c.next)
    else do
      let hasName := Text.holds (rest.takeWhile fun ch => !(ch == ' ' || isBreak ch)) '!'
      let (handle, after) ← if hasName then c.handle? else some (("!" : Text), c.next)
      let (name, after) ← after.tagName?
      some (⟨some handle, name⟩, after)
  if atSpaceOrBreak after.rest then some (tag, after) else none

/-- The name after the mark of an anchor, or of a place that names one. -/
def anchorName? (c : Cursor) : Option (Text × Cursor) :=
  let (name, after) := c.next.takeWhile isNamePart
  let isOver := match after.rest with
    | [] => true
    | ch :: _ => isGap ch || Text.holds "?:,]\x7d%@\x60" ch
  if name.isEmpty || !isOver then none else some (name, after)

/-- The place after the spaces that start here. -/
def skipSpaces (c : Cursor) : Cursor := c.dropWhile (· == ' ')

/-- The version of the format, in two numbers. -/
def version? (c : Cursor) : Option (Directive × Cursor) := do
  let (major, c) := c.skipSpaces.takeWhile CodePoint.isDigit
  let (minor, c) := (← c.after? '.').takeWhile CodePoint.isDigit
  if major.isEmpty || minor.isEmpty || !atSpaceOrBreak c.rest then none
  else some (.version (Json.plainNumber major), c)

/-- A handle and what it stands for. -/
def handleMeaning? (c : Cursor) : Option (Directive × Cursor) := do
  let (name, c) ← c.skipSpaces.handle?
  let (start, c) ← (← c.after? ' ').skipSpaces.tagName?
  if atSpaceOrBreak c.rest then some (.handle name start, c) else none

/-- A directive at its percent sign, and the place after its line. -/
def directive? (c : Cursor) : Option (Directive × Cursor) := do
  let (name, c) := c.next.takeWhile isNamePart
  if name.isEmpty || !atSpaceOrBreak c.rest then none
  let (directive, c) ←
    if name = "YAML" then c.version?
    else if name = "TAG" then c.handleMeaning?
    else some (.other, c.dropWhile (!isBreak ·))
  let c := c.skipSpaces.skipComment
  if atBreak c.rest then some (directive, (c.lineBreak?.map (·.2)).getD c) else none

end Cursor
end RandomTables.Yaml
