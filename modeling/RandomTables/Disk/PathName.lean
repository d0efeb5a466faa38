import RandomTables.Text.Split

/-!
# Path names

A path name is the text by which a file or folder is asked for. Empty segments and single points
mean nothing in it and are left out; two points are kept, since what they lead to depends on the
disk. A name starts from the root if it starts with a slash, and two slashes at the start are told
apart from one.

On the disk a path name is a run of bytes without a zero byte. Characters are written in UTF-8, and
the halves from 0xDC80 to 0xDCFF stand for single bytes; the other halves cannot be written.
-/
namespace RandomTables

/-- A path name: the slashes at its start, of which there are up to two, and its segments. -/
structure PathName where
  slashes : Nat
  names : List Text
  deriving Repr, DecidableEq, Inhabited

/-- How many bytes a code point takes in a path name, if it can be written there. -/
def CodePoint.pathBytes? : CodePoint → Option Nat
  | char c => some c.utf8Size
  | half index => if 0x480 ≤ index.val && index.val < 0x500 then some 1 else none

namespace PathName

def byteCount (s : Text) : Nat := (s.map fun c => c.pathBytes?.getD 0).foldr (· + ·) 0

/-- How many slashes count at the start of a text. -/
def leadingSlashes : Text → Nat
  | [.char '/', .char '/'] => 2
  | .char '/' :: .char '/' :: c :: _ => if c = '/' then 1 else 2
  | .char '/' :: _ => 1
  | _ => 0

/-- The segments of a text that mean something. -/
def segments (s : Text) : List Text :=
  (Text.split '/' s).filter fun name => !name.isEmpty && name != "."

def read (s : Text) : PathName := ⟨leadingSlashes s, segments s⟩

def text (p : PathName) : Text :=
  if p.slashes = 0 && p.names.isEmpty then "."
  else Text.copies p.slashes '/' ++ Text.joinWith "/" p.names

def append (p : PathName) (names : List Text) : PathName := ⟨p.slashes, p.names ++ names⟩

def ofPlace (place : List Text) : PathName := ⟨1, place⟩

/-- The last name, empty if there is none. -/
def lastName (p : PathName) : Text := p.names.getLastD []

/-- The path name with another last name. -/
def withLastName (p : PathName) (name : Text) : PathName := ⟨p.slashes, p.names.dropLast ++ [name]⟩

/-- The path name in which every two points have taken away the name before them, whatever that name
leads to. -/
def flattened (p : PathName) : PathName where
  slashes := p.slashes
  names := p.names.foldl flatten []
where
  /-- The names in front of another one, which is taken in. -/
  flatten (done : List Text) (name : Text) : List Text :=
    if name = ".." then done.dropLast else done ++ [name]

/-- The path name lies below another one and is not that name itself. -/
def isBelow (p above : PathName) : Bool :=
  p.slashes == above.slashes && above.names.isPrefixOf p.names && above.names != p.names

end PathName
end RandomTables
