import RandomTables.Disk.Files
import RandomTables.Disk.Settle
import RandomTables.Text.Casing

/-!
# Directories of tables

The tables of a directory lie in files anywhere below it. The entry of a file is its path below the
directory without its suffix, after a slash. Entries are served for names as they are asked for, so
an entry may be spelled in more ways than one; but whatever its spelling, no file is served that
lies outside the directory, and links are followed before that is checked.
-/
namespace RandomTables

/-- Why an entry is not served. -/
inductive DirectoryFault where
  | notFound (root : Text)
  | outOfBounds (path : Text)
  | noFile (entry : Text)
  | disk (fault : DiskFault)
  deriving Repr, DecidableEq, Inhabited

def DirectoryFault.message : DirectoryFault → Text
  | notFound root => "Table directory not found: " ++ root
  | outOfBounds path => "entry " ++ path ++ " out of bounds!"
  | noFile entry => "No table file for entry " ++ Text.quoted entry
  | disk fault => fault.message

namespace TableDirectory

/-- The suffixes of table files, in the order in which they are tried. -/
def suffixes : List Text := [".yml", ".yaml", ".json"]

/-- A file name cut in front of its suffix. The suffix runs from the last point on; there is none
if the point comes first or last. -/
def cutSuffix (name : Text) : Text × Text :=
  let tail := (name.reverse.takeWhile (· ≠ .char '.')).reverse
  let stem := name.take (name.length - tail.length - 1)
  if tail.isEmpty || stem.isEmpty then (name, []) else (stem, '.' :: tail)

/-- The file name has the suffix of a table file, in letters of any case. -/
def isTableName (name : Text) : Bool := suffixes.contains (Text.lower (cutSuffix name).2)

/-- The entry of a table file at a place below the directory. -/
def entryOf (names : List Text) : Text :=
  let last := (cutSuffix (names.getLastD [])).1
  "/" ++ Text.joinWith "/" (names.dropLast ++ [last])

/-- The entries of all table files below a directory, in order and each once. With filters only
those are listed that contain one of them; empty filters do not count. -/
def index (disk : Disk) (directory : PathName) (filters : List Text) :
    Except DirectoryFault (List Text) := do
  let isThere ← (disk.isFolder directory).mapError .disk
  if !isThere then .error (.notFound directory.text)
  let items := match disk.find directory with
    | .ok (_, item) => item.entries
    | .error _ => []
  let files ← (Item.leavesOfEntries items).filterM fun names =>
    (disk.isFile (directory.append names)).mapError DirectoryFault.disk
  let tables := files.filter fun names => isTableName (names.getLastD [])
  let entries := ((tables.map entryOf).mergeSort fun a b => decide (a ≤ b)).eraseDups
  let filters := filters.filter fun f => !f.isEmpty
  .ok <| if filters.isEmpty then entries
    else entries.filter fun entry => filters.any fun f => f.occursIn entry

/-- The file of a name with one of some suffixes added, if there is one. -/
def fileAt? (disk : Disk) (p : PathName) : List Text → Except DiskFault (Option PathName)
  | [] => .ok none
  | suffix :: rest => do
    let candidate := p.withLastName (p.lastName ++ suffix)
    if ← disk.isFile candidate then .ok (some candidate) else fileAt? disk p rest

def resolveEntry (disk : Disk) (directory : PathName) (entry : Text) :
    Except DirectoryFault PathName := do
  let root ← (disk.settle directory).mapError DirectoryFault.disk
  let base ← (disk.settle (root.append (PathName.segments entry))).mapError DirectoryFault.disk
  if !base.isBelow root then .error (.outOfBounds base.text)
  match ← (fileAt? disk base suffixes).mapError DirectoryFault.disk with
  | none => .error (.noFile entry)
  | some file =>
    let target ← (disk.settle file).mapError DirectoryFault.disk
    if target.isBelow root then .ok file else .error (.outOfBounds target.text)

end TableDirectory

/-- Why the text of an entry is not served. -/
inductive RetrieveFault where
  | directory (fault : DirectoryFault)
  | read (fault : ReadFault)
  deriving Repr, DecidableEq, Inhabited

def RetrieveFault.message : RetrieveFault → Text
  | directory fault => fault.message
  | read fault => fault.message

namespace TableDirectory

/-- The file that an entry is served from, and its text. -/
def retrieve (disk : Disk) (directory : PathName) (entry : Text) :
    Except RetrieveFault (PathName × Text) := do
  let file ← (resolveEntry disk directory entry).mapError .directory
  let text ← (disk.readText file).mapError .read
  return (file, text)

end TableDirectory
end RandomTables
