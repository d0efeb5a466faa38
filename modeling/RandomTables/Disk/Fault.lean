import RandomTables.Disk.PathName
import RandomTables.Text.Quoted

/-!
# Faults of a disk

What can stand in the way of asking a disk for something. Some path names are no names of anything
on any disk; the others are refused for what the disk holds.
-/
namespace RandomTables

/-- What stands in the way of an operation. -/
inductive DiskFaultKind where
  | missing
  | notFolder
  | isFolder
  | taken
  | manyLinks
  | longName
  | zeroByte
  | looseHalf
  | endless
  deriving Repr, DecidableEq, Inhabited

/-- What stands in the way of an operation, and the path name it was asked for by. -/
structure DiskFault where
  kind : DiskFaultKind
  path : Text
  deriving Repr, DecidableEq, Inhabited

def DiskFault.message (fault : DiskFault) : Text :=
  let named (wording : Text) : Text := wording ++ ": " ++ Text.quoted fault.path
  match fault.kind with
  | .missing => named "[Errno 2] No such file or directory"
  | .notFolder => named "[Errno 20] Not a directory"
  | .isFolder => named "[Errno 21] Is a directory"
  | .taken => named "[Errno 17] File exists"
  | .manyLinks => named "[Errno 40] Too many levels of symbolic links"
  | .longName => named "[Errno 36] File name too long"
  | .zeroByte => "embedded null byte"
  | .looseHalf => "surrogates not allowed"
  | .endless => "Symlink loop from " ++ Text.quoted fault.path

namespace PathName

/-- The bytes that a name in a folder may take. -/
def maxNameBytes : Nat := 255

/-- The bytes that a whole path name may take. -/
def maxPathBytes : Nat := 4095

/-- What keeps a text from being written as a path name. -/
def writingFault? (s : Text) : Option DiskFaultKind :=
  if s.any fun c => c.pathBytes?.isNone then some .looseHalf
  else if s.contains '\x00' then some .zeroByte
  else none

/-- What keeps a path name from being followed at all. -/
def fault? (p : PathName) : Option DiskFaultKind :=
  writingFault? p.text <|> if byteCount p.text > maxPathBytes then some .longName else none

end PathName
end RandomTables
