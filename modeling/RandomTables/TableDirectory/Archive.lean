import RandomTables.Document.Json.Printer
import RandomTables.TableDirectory.Basic

/-!
# Archives

A directory is archived in two files: a list of its entries, and a map from every entry to its text.
The folder of the archive is made first, and stays when the directory cannot be archived.
-/
namespace RandomTables.TableDirectory

/-- Why a directory is not archived. -/
inductive ArchiveFault where
  | disk (fault : DiskFault)
  | retrieve (fault : RetrieveFault)
  deriving Repr, DecidableEq, Inhabited

def ArchiveFault.message : ArchiveFault → Text
  | disk fault => fault.message
  | retrieve fault => fault.message

/-- The file that lists the entries. -/
def listName : Text := "index.json"

/-- The file that holds the texts. -/
def textsName : Text := "rollables.json"

def textsOf (disk : Disk) (directory : PathName) :
    List Text → Except RetrieveFault (List (Text × Document))
  | [] => .ok []
  | entry :: rest => do
    let (_, text) ← retrieve disk directory entry
    let texts ← textsOf disk directory rest
    return (entry, .text text) :: texts

def contents (disk : Disk) (directory : PathName) :
    Except RetrieveFault (List Text × List (Text × Document)) := do
  let entries ← (index disk directory []).mapError RetrieveFault.directory
  return (entries, ← textsOf disk directory entries)

def writeFiles (disk : Disk) (output : PathName) (entries : List Text)
    (texts : List (Text × Document)) : Except DiskFault Unit × Disk :=
  let list := Json.print (some 2) (.list (entries.map Document.text))
  match disk.writeText (output.append [listName]) list with
  | .error fault => (.error fault, disk)
  | .ok disk =>
    match disk.writeText (output.append [textsName]) (Json.print none (Document.record texts)) with
    | .error fault => (.error fault, disk)
    | .ok disk => (.ok (), disk)

def archive (disk : Disk) (directory output : PathName) : Except ArchiveFault Unit × Disk :=
  match disk.makeFolders output with
  | (.error fault, disk) => (.error (.disk fault), disk)
  | (.ok (), disk) =>
    match contents disk directory with
    | .error fault => (.error (.retrieve fault), disk)
    | .ok (entries, texts) =>
      let (result, disk) := writeFiles disk output entries texts
      (result.mapError .disk, disk)

end RandomTables.TableDirectory
