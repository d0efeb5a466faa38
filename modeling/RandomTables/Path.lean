import RandomTables.Text.Blank
import RandomTables.Text.Split

/-!
# Paths

Tables are registered under absolute paths below a root. A reference names its target by a path
from the root (`$/a`), a path from the referring table's directory (anything that starts with a
point), or an absolute path. Resolving joins the path to its starting point, and then takes `.`
and `..` segments out below the root, or everywhere if the path does not start there.

Those segments are taken out in passes over the text: a pass drops `.` segments, then the first name
that a `..` follows together with it, then a `..` right below the root. Passes are repeated until one
changes nothing.
-/
namespace RandomTables.Path

/-- A part of a path between two slashes. -/
abbrev Segment := Text

/-- The segment that stands for the directory itself. -/
def here : Segment := ['.']

/-- The segment that stands for the directory above. -/
def up : Segment := ['.', '.']

/-- The path with every run of slashes cut to one. -/
def squeeze : Text → Text
  | .char '/' :: .char '/' :: rest => squeeze ('/' :: rest)
  | c :: rest => c :: squeeze rest
  | [] => []

def dropEnd (s : Text) : Text := (s.reverse.dropWhile (· = .char '/')).reverse

/-- The path with single slashes, and none at its end unless it is the root. -/
def finish (s : Text) : Text :=
  let s := squeeze s
  if s.length > 1 then
    let cut := dropEnd s
    if cut.isEmpty then ['/'] else cut
  else s

/-- What stands before the last slash. -/
def beforeLastSlash (s : Text) : Text := (s.reverse.dropWhile (· ≠ .char '/')).drop 1 |>.reverse

def parent (s : Text) : Text :=
  let head := beforeLastSlash (finish ('/' :: s))
  if head.isEmpty then ['/'] else head

/-- The segment is a name, not one of the two with a meaning. -/
def isProper (s : Segment) : Bool := !s.isEmpty && s != here && s != up

/-- The path with every `/./`, from left to right, cut to one slash. The slash that ends one of them
begins no other. -/
def dropHere : Text → Text
  | .char '/' :: .char '.' :: .char '/' :: rest => '/' :: dropHere rest
  | c :: rest => c :: dropHere rest
  | [] => []

/-- What follows up to the next slash. -/
def upToSlash (s : Text) : Segment := s.takeWhile (· ≠ .char '/')

/-- What follows from the next slash on. -/
def fromSlash (s : Text) : Text := s.dropWhile (· ≠ .char '/')

/-- The path goes up right after a slash that it starts with. -/
def startsUp (s : Text) : Bool := s.startsWith ['/', '.', '.', '/']

/-- Drop the first name that a `..` follows, together with it. -/
def dropFirstPair : Text → Text
  | [] => []
  | c :: rest =>
    if c = .char '/' ∧ isProper (upToSlash rest) ∧ startsUp (fromSlash rest) then
      (fromSlash rest).drop 3
    else c :: dropFirstPair rest

/-- Drop a `..` that the path starts with. -/
def dropLeadingUp (s : Text) : Text := if startsUp s then s.drop 3 else s

def pass (s : Text) : Text := dropLeadingUp (dropFirstPair (dropHere s))

/-- Passes until nothing changes, at most as many as are given. -/
def reduce : Nat → Text → Text
  | 0, s => s
  | passes + 1, s =>
    let next := pass s
    if next = s then s else reduce passes next

/-- The path with its `.` and `..` segments worked out, and a slash at its end. A pass that changes
anything makes the path shorter, so there are never more passes than code points. -/
def normalize (s : Text) : Text :=
  let s := squeeze (s ++ "/")
  reduce (s.length + 1) s

/-- The path is the root's text or continues it with a slash. An empty text is no root. -/
def isBelow (root s : Text) : Bool :=
  !root.isEmpty && (s == root || s.startsWith (root ++ "/"))

/-- The root in front of a path, and what follows it; nothing in front if the path is elsewhere. -/
def splitRoot (s root : Text) : Text × Text :=
  let root := dropEnd root
  if isBelow root s then (root, s.drop root.length) else ([], s)

def join (raw directory root : Text) : Text :=
  if raw.startsWith "$/" || raw == "$" then root ++ "/" ++ raw.drop 1
  else if raw.startsWith "." then parent directory ++ "/" ++ raw
  else if isBelow (dropEnd root) raw then raw
  else root ++ "/" ++ raw

/-- The absolute path that a raw one means when it stands in the table at `directory`. -/
def resolve (raw directory root : Text) : Text :=
  let (front, rest) := splitRoot (squeeze (join (Text.trim raw) directory root)) root
  finish (front ++ normalize (if rest.isEmpty then ['/'] else rest))

def lastSegment (s : Text) : Text :=
  (s.reverse.takeWhile (· ≠ .char '/')).reverse

end RandomTables.Path
