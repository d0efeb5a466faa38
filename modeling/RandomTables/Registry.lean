import RandomTables.Definition.OfDocument
import RandomTables.Document.Decoder
import RandomTables.Path

/-!
# The registry

The registry holds definitions under their paths, in the order in which the paths first came up. It
is filled from sources; a source that is no definition is left out and adds a line to the errors,
and the others are loaded all the same. Texts are decoded by whatever decoder there is.
-/
namespace RandomTables

/-- Definitions by path, the root that their paths lie below, and an account of how they were
loaded. -/
structure Registry where
  root : Text
  definitions : List Definition
  seen : Nat
  loaded : Nat
  errors : List Text
  deriving Repr, Inhabited

/-- What a definition is made from: the text of a file, or a value that is decoded already. -/
inductive SourceText where
  | text (content suffix : Text)
  | decoded (value : Document)
  deriving Repr, Inhabited

/-- Why a source is no definition. -/
inductive SourceFault where
  | decode (fault : DecodeFault)
  | definition (error : DefinitionError)
  deriving Repr, Inhabited

def SourceFault.message : SourceFault → Text
  | decode fault => fault.message
  | definition error => error.message

/-- The fault ends the loading of sources altogether: an option without a name does, and a grave
fault in a text. -/
def SourceFault.endsLoading : SourceFault → Bool
  | decode fault => fault.isGrave
  | definition .unnamedOption => true
  | definition _ => false

namespace SourceText

def define [Decoder] (path : Text) : SourceText → Except SourceFault Definition
  | text content suffix =>
    match Decoder.decode content suffix with
    | .error fault => .error (.decode fault)
    | .ok value => (Definition.ofDocument path value).mapError .definition
  | decoded value => (Definition.ofDocument path value).mapError .definition

end SourceText

namespace Registry

def empty (root : Text) : Registry := ⟨root, [], 0, 0, []⟩

def get? (r : Registry) (path : Text) : Option Definition :=
  r.definitions.find? fun d => decide (d.path = path)

/-- Put a definition in the place of the one with its path, or at the end. -/
def place (d : Definition) : List Definition → List Definition
  | [] => [d]
  | old :: rest => if old.path = d.path then d :: rest else old :: place d rest

def register (r : Registry) (d : Definition) : Registry :=
  { r with definitions := place d r.definitions }

/-- A registry of given definitions, which no sources account for. -/
def ofDefinitions (root : Text) (ds : List Definition) : Registry :=
  ds.foldl register (empty root)

def paths (r : Registry) : List Text := r.definitions.map Definition.path

/-- The registry with a line added for a source that is left out. -/
def leaveOut (r : Registry) (name wording : Text) : Registry :=
  { r with seen := r.seen + 1, errors := r.errors ++ [name ++ ": " ++ wording] }

section
variable [Decoder]

def addSource (r : Registry) (entry : Text) (source : SourceText) :
    Except SourceFault Registry :=
  let path := Path.resolve entry "/" r.root
  match source.define path with
  | .ok d => .ok { r.register d with seen := r.seen + 1, loaded := r.loaded + 1 }
  | .error fault =>
    if fault.endsLoading then .error fault else .ok (r.leaveOut path fault.message)

def addSources (r : Registry) : List (Text × SourceText) → Except SourceFault Registry
  | [] => .ok r
  | (entry, source) :: rest =>
    match r.addSource entry source with
    | .ok r => r.addSources rest
    | .error e => .error e

/-- The registry of some sources. -/
def ofSources (root : Text) (sources : List (Text × SourceText)) :
    Except SourceFault Registry :=
  (empty root).addSources sources

end

theorem find?_place (d : Definition) (path : Text) (ds : List Definition) :
    (place d ds).find? (fun e => decide (e.path = path)) =
      if d.path = path then some d else ds.find? (fun e => decide (e.path = path)) := by
  induction ds with
  | nil => by_cases h : d.path = path <;> simp [place, h]
  | cons old rest ih =>
    rw [place]
    split
    · next ho => by_cases h : d.path = path <;> simp [ho, h]
    · next ho =>
      by_cases hp : old.path = path
      · have h : d.path ≠ path := fun h => ho (hp.trans h.symm)
        simp [hp, h]
      · simp [hp, ih]

@[simp] theorem get?_register (r : Registry) (d : Definition) (path : Text) :
    (r.register d).get? path = if d.path = path then some d else r.get? path :=
  find?_place d path r.definitions

/-- What is found under a path has that path. -/
theorem path_of_get?_eq_some {r : Registry} {path : Text} {d : Definition}
    (h : r.get? path = some d) : d.path = path := by
  simpa using List.find?_some h

/-- What is found under a path is found under its own path. -/
theorem get?_path_of_get?_eq_some {r : Registry} {path : Text} {d : Definition}
    (h : r.get? path = some d) : r.get? d.path = some d := by
  rw [path_of_get?_eq_some h]
  exact h

end Registry
end RandomTables
