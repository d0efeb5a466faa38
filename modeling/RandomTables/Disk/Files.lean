import RandomTables.Disk.Walk
import RandomTables.Text.Line

/-!
# Files

Files are read and written whole. Text is kept in UTF-8; when it is read, every kind of line end
becomes a line feed.
-/
namespace RandomTables

/-- Why a text cannot be read from a file. -/
inductive ReadFault where
  | disk (fault : DiskFault)
  | encoding
  deriving Repr, DecidableEq, Inhabited

def ReadFault.message : ReadFault → Text
  | disk fault => fault.message
  | encoding => "invalid utf-8"

/-- The text that bytes denote, with line feeds for line ends. -/
def textOf? (content : ByteArray) : Option Text :=
  (String.fromUTF8? content).map fun s => Text.unifyLineEnds s

namespace Disk

/-- The content of a file. -/
def readBytes (disk : Disk) (p : PathName) : Except DiskFault ByteArray :=
  match disk.find p with
  | .ok (_, .file content) => .ok content
  | .ok _ => .error ⟨.isFolder, p.text⟩
  | .error kind => .error ⟨kind, p.text⟩

def readText (disk : Disk) (p : PathName) : Except ReadFault Text :=
  match disk.readBytes p with
  | .error fault => .error (.disk fault)
  | .ok content =>
    match textOf? content with
    | some text => .ok text
    | none => .error .encoding

def putAt (disk : Disk) (place : List Text) (item : Item) : Disk :=
  { disk with root := item.put disk.root place }

/-- Write a text to a file, which is made if it is not there. -/
def writeText (disk : Disk) (p : PathName) (text : Text) : Except DiskFault Disk :=
  match disk.arrive true p, text.string? with
  | .error kind, _ => .error ⟨kind, p.text⟩
  | .ok _, none => .error ⟨.looseHalf, p.text⟩
  | .ok (.free place), some s => .ok (disk.putAt place (.file s.toUTF8))
  | .ok (.item place (.file _)), some s => .ok (disk.putAt place (.file s.toUTF8))
  | .ok (.item _ _), some _ => .error ⟨.isFolder, p.text⟩

/-- Make a folder, in a folder that is there. -/
def newFolder (disk : Disk) (p : PathName) : Except DiskFaultKind Disk :=
  match p.fault?, p.names.getLast? with
  | some kind, _ => .error kind
  | none, none => .error .taken
  | none, some name =>
    match disk.find ⟨p.slashes, p.names.dropLast⟩ with
    | .error kind => .error kind
    | .ok (place, .folder items) =>
      if name = ".." || (Item.lookup name items).isSome then .error .taken
      else if PathName.byteCount name > PathName.maxNameBytes then .error .longName
      else .ok (disk.putAt (place ++ [name]) (.folder []))
    | .ok _ => .error .notFolder

/-- Make a folder, in a folder that is there. A folder that is there already stays. -/
def makeFolder (disk : Disk) (p : PathName) : Except DiskFault Disk :=
  match disk.newFolder p with
  | .ok disk => .ok disk
  | .error kind =>
    let fault : DiskFault := ⟨kind, p.text⟩
    if kind = .missing || kind = .zeroByte || kind = .looseHalf then .error fault
    else do if ← disk.isFolder p then .ok disk else .error fault

/-- Make the folder whose names are given from the last one on, after the folders on the way to it
if they are not there. -/
def makeFoldersFrom (disk : Disk) (slashes : Nat) : List Text → Except DiskFault Unit × Disk
  | [] => (.ok (), disk)
  | name :: above =>
    let p : PathName := ⟨slashes, (name :: above).reverse⟩
    match disk.makeFolder p with
    | .ok disk => (.ok (), disk)
    | .error ⟨.missing, _⟩ =>
      match disk.makeFoldersFrom slashes above with
      | (.error fault, disk) => (.error fault, disk)
      | (.ok (), disk) =>
        match disk.makeFolder p with
        | .ok disk => (.ok (), disk)
        | .error fault => (.error fault, disk)
    | .error fault => (.error fault, disk)

/-- Make a folder and every folder on the way to it, as far as they are not there. A folder may be
on the way even if two points lead out of it again, and those made stay if one cannot be made. -/
def makeFolders (disk : Disk) (p : PathName) : Except DiskFault Unit × Disk :=
  disk.makeFoldersFrom p.slashes p.names.reverse

/-- Put an item under a path name, after the folders on the way to it, where links are followed. A
folder that is there already stays, and so does everything if there is no way to the name. -/
def place (disk : Disk) (p : PathName) (item : Item) : Disk :=
  let disk := (disk.makeFolders ⟨p.slashes, p.names.dropLast⟩).2
  match item with
  | .folder _ => (disk.makeFolder p).toOption.getD disk
  | .file _ =>
    match disk.arrive true p with
    | .ok (.free place) | .ok (.item place (.file _)) => disk.putAt place item
    | _ => disk
  | .link _ =>
    match disk.find ⟨p.slashes, p.names.dropLast⟩ with
    | .ok (place, .folder _) => disk.putAt (place ++ [p.lastName]) item
    | _ => disk

end Disk
end RandomTables
