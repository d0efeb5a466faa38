import RandomTables.Registry
import RandomTables.TableDirectory.Basic

/-!
# Registries from directories

Every entry of a directory is a source of the registry. An entry that cannot be read is left out
like one that is no definition.
-/
namespace RandomTables.TableDirectory

variable [Decoder]

/-- Why there is no registry of a directory. A link in the way of an entry that leads back to itself
is a fault of the whole directory. -/
inductive LoadFault where
  | directory (fault : DirectoryFault)
  | source (fault : SourceFault)
  deriving Repr, Inhabited

def LoadFault.message : LoadFault → Text
  | directory fault => fault.message
  | source fault => fault.message

/-- Take an entry into a registry, or leave it out. -/
def addEntry (disk : Disk) (directory : PathName) (r : Registry) (entry : Text) :
    Except LoadFault Registry :=
  match retrieve disk directory entry with
  | .error (.directory (.disk ⟨.endless, path⟩)) => .error (.directory (.disk ⟨.endless, path⟩))
  | .error fault => .ok (r.leaveOut entry fault.message)
  | .ok (file, text) =>
    (r.addSource entry (.text text (cutSuffix file.lastName).2)).mapError .source

/-- The registry of a directory; its paths lie below `root`. -/
def load (disk : Disk) (directory : PathName) (root : Text) : Except LoadFault Registry := do
  let entries ← (index disk directory []).mapError LoadFault.directory
  entries.foldlM (addEntry disk directory) (Registry.empty root)

end RandomTables.TableDirectory
