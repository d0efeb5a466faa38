import RandomTables.Disk.Basic
import RandomTables.Disk.Fault

/-!
# Following path names

A path name is followed from the root or from the folder that is current. Where a link is met, what
it points to is followed in its place; two points lead to the folder above, and a single point or a
slash at the end ask for a folder. Every name but the last must be there, and what becomes of a last
name that is free is up to the operation.
-/
namespace RandomTables

/-- A tree of folders, and the place of the current one. -/
structure Disk where
  root : Item
  here : List Text
  deriving Inhabited

/-- Where following a path name has led to: an item, or a name that nothing has in its folder. -/
inductive Arrival where
  | item (place : List Text) (item : Item)
  | free (place : List Text)
  deriving Inhabited

/-- The target of a link, cut into its names. -/
structure LinkTarget where
  fromRoot : Bool
  names : List Text
  endsInSlash : Bool
  deriving Repr, DecidableEq

/-- The names in the text of a link. -/
def LinkTarget.read (s : Text) : LinkTarget where
  fromRoot := s.startsWith "/"
  names := (Text.split '/' s).filter fun name => !name.isEmpty
  endsInSlash := s.getLast? == some (.char '/')

namespace Disk

/-- How many links are followed at most. -/
def maxLinks : Nat := 40

/-- The place that path names of a kind start from. -/
def start (disk : Disk) (p : PathName) : List Text := if p.slashes = 0 then disk.here else []

/-- Follow names from a place that no link leads through, where `slash` tells that the last one ends
in a slash. A file cannot be made under a name that does: with `making`, such a name is refused. -/
def follow (root : Item) (making : Bool) (links : Nat) (place names : List Text) (slash : Bool) :
    Except DiskFaultKind Arrival :=
  match root.at? place, names with
  | none, _ => .error .missing
  | some item, [] => if slash && !item.isFolder then .error .notFolder else .ok (.item place item)
  | some (.folder items), name :: rest =>
    if name = "." then follow root making links place rest slash
    else if name = ".." then follow root making links place.dropLast rest slash
    else if making && slash && rest.isEmpty then .error .isFolder
    else if PathName.byteCount name > PathName.maxNameBytes then .error .longName
    else
      match Item.lookup name items with
      | none => if rest.isEmpty then .ok (.free (place ++ [name])) else .error .missing
      | some (.link text) =>
        match links with
        | 0 => .error .manyLinks
        | links + 1 =>
          let target := LinkTarget.read text
          follow root making links (if target.fromRoot then [] else place) (target.names ++ rest)
            (if rest.isEmpty then slash || target.endsInSlash else slash)
      | some _ => follow root making links (place ++ [name]) rest slash
  | some _, _ :: _ => .error .notFolder
termination_by (links, names.length)

def arrive (disk : Disk) (making : Bool) (p : PathName) : Except DiskFaultKind Arrival :=
  match p.fault? with
  | some kind => .error kind
  | none => follow disk.root making maxLinks (disk.start p) p.names false

/-- The item that a path name leads to, and its place. -/
def find (disk : Disk) (p : PathName) : Except DiskFaultKind (List Text × Item) :=
  match disk.arrive false p with
  | .error kind => .error kind
  | .ok (.free _) => .error .missing
  | .ok (.item place item) => .ok (place, item)

/-- The path name leads to an item with a property. Only a name that is too long is a fault, any
other that leads nowhere has no property. -/
def check (disk : Disk) (property : Item → Bool) (p : PathName) : Except DiskFault Bool :=
  match disk.find p with
  | .ok (_, item) => .ok (property item)
  | .error .longName => .error ⟨.longName, p.text⟩
  | .error _ => .ok false

def isFile (disk : Disk) (p : PathName) : Except DiskFault Bool := disk.check Item.isFile p

def isFolder (disk : Disk) (p : PathName) : Except DiskFault Bool := disk.check Item.isFolder p

end Disk
end RandomTables
