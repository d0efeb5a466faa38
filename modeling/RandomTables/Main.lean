import RandomTables.CommandLine.Arguments
import RandomTables.CommandLine.Run
import Std.Time

/-!
# The program

The outermost layer: it shows a command the part of the file system that its options name, carries
the command out, and writes back the folders and files that it has made.
-/
namespace RandomTables

/-- A text as it is shown, with a mark in the place of a half that stands alone. -/
def shown (t : Text) : String := String.ofList (t.map fun c => c.char?.getD '\uFFFD')

def entryAt (place : List Text) : IO.FS.DirEntry := ⟨"", "/" ++ shown (Text.joinWith "/" place)⟩

/-- What kind of thing an entry is, if it is there. -/
def kind? (entry : IO.FS.DirEntry) : IO (Option IO.FS.FileType) :=
  try
    return some (← entry.path.symlinkMetadata).type
  catch _ => return none

/-- The path name that a link finally leads to, if anything is there. -/
def linkTarget? (entry : IO.FS.DirEntry) : IO (Option PathName) :=
  try
    return some (.read (← IO.FS.realPath entry.path).toString)
  catch _ => return none

/-- The disk with an item at a place where it showed none. -/
def Disk.showing (disk : Disk) (place : List Text) (item : Item) : Disk :=
  if (disk.root.at? place).isSome then disk else disk.putAt place item

/-- Show what names lead to from a place, with the links on the way and, if `deep`, everything
below. -/
partial def showAlong (deep : Bool) (disk : Disk) (place names : List Text) : IO Disk := do
  match names with
  | [] =>
    let mut disk := disk
    if deep then
      for entry in ← (entryAt place).path.readDir do
        let kind ← kind? entry
        disk ← showAlong (kind matches some .dir) disk place [entry.fileName]
    return disk
  | name :: rest =>
    if name = ".." then return ← showAlong deep disk place.dropLast rest
    let next := place ++ [name]
    let entry := entryAt next
    match ← kind? entry with
    | some .dir => showAlong deep (disk.showing next (.folder [])) next rest
    | some .file => return disk.showing next (.file (← IO.FS.readBinFile entry.path))
    | some .symlink =>
      match ← linkTarget? entry with
      | none => return disk
      | some target =>
        showAlong deep (disk.showing next (.link target.text)) [] (target.names ++ rest)
    | _ => return disk

/-- The path names of the files that a command may write. -/
def Options.outputs (o : Options) : List PathName :=
  let archived := match o.archive.bind Given.value? with
    | some output =>
      [output.append [TableDirectory.listName], output.append [TableDirectory.textsName]]
    | none => []
  archived ++ (o.saveLog.bind Given.value?).toList

/-- The part of the file system that a command may use. -/
def visibleDisk (o : Options) : IO Disk := do
  let here := (PathName.read (← IO.currentDir).toString).names
  let mut disk : Disk := ⟨.folder [], here⟩
  disk ← showAlong false disk [] here
  for p in o.tables.value?.toList do
    disk ← showAlong true disk (disk.start p) p.names
  for p in (o.replay.bind Given.value?).toList ++ o.outputs do
    disk ← showAlong false disk (disk.start p) p.names
  return disk

/-- Write a file back if it has changed. -/
def writeBack (before after : Disk) (p : PathName) : IO Unit := do
  match after.find p with
  | .ok (place, .file content) =>
    let old := match before.readBytes p with
      | .ok old => old.data == content.data
      | .error _ => false
    unless old do
      IO.FS.createDirAll (entryAt place.dropLast).path
      IO.FS.writeBinFile (entryAt place).path content
  | _ => return

def makeBack (after : Disk) (p : PathName) : IO Unit := do
  match after.find p with
  | .ok (place, .folder _) => IO.FS.createDirAll (entryAt place).path
  | _ => return

def presentTime : IO Timestamp := do
  let t ← Std.Time.PlainDateTime.now
  return ⟨t.year.toInt.toNat, t.date.month.toNat, t.date.day.toNat, t.time.hour.toNat,
    t.time.minute.toNat, t.time.second.toNat, t.time.nanosecond.toNat / 1000, none⟩

/-- How the program is used. -/
def usageText : String :=
  "usage: random-tables [-h] [--tables DIR] [--seed N] [-v] [--list] [--filter TEXT]\n" ++
  "         [--export DIR] [--reroll PATH] [--tree] [--replay FILE] [--show-log]\n" ++
  "         [--save-log FILE] [table]"

/-- Carry out a command on the file system; the answer is the exit code. -/
def perform (o : Options) : IO UInt32 := do
  let before ← visibleDisk o
  let fresh ← IO.rand 0 (Nat.pow 2 32 - 1)
  let (ending, console) := Command.run (← presentTime) fresh o before
  IO.print (shown console.printed)
  for m in console.messages do
    IO.eprintln (shown m.line)
  for p in (o.archive.bind Given.value?).toList do
    makeBack console.disk p
  for p in o.outputs do
    writeBack before console.disk p
  match ending with
  | .exit code => return code.toUInt32
  | .failed fault =>
    IO.eprintln (shown fault.message)
    return 1

end RandomTables

open RandomTables

/-- Carry out the command that the arguments spell out. -/
def main (args : List String) : IO UInt32 := do
  match Options.ofArguments (args.map Text.ofString) with
  | .ok o => perform o
  | .error refusal =>
    if refusal = .help then IO.println usageText else IO.eprintln usageText
    return refusal.exitCode.toUInt32
