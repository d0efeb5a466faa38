import RandomTables.CommandLine.Word

/-!
# Reading the command line

The words are carried out from left to right, and the first one that cannot be is the reason for
refusing the command line. The first value that belongs to no option is the entry. What is left over
is noted and refused at the end, so that a later request for help still counts.
-/
namespace RandomTables

/-- The command line as far as it has been read: what it asks for, whether there has been an entry,
and whether anything is left over. -/
structure Reading where
  options : Options
  entered : Bool
  leftOver : Bool
  deriving Repr, DecidableEq

namespace Reading

def start : Reading := ⟨.usual, false, false⟩

/-- The options that short names in one word stand for; nothing if some character names none. -/
def cluster? : Text → Option (List Flag)
  | [] => some []
  | c :: rest => do
    let f ← Flag.ofName? ['-', c]
    let more ← cluster? rest
    some (f :: more)

/-- Carry out options that take no value. -/
def applyAll (o : Options) : List Flag → Except Refusal Options
  | [] => .ok o
  | f :: rest => do applyAll (← f.apply o) rest

/-- An option with a text attached to it: its value, or further short names. -/
def attach (r : Reading) (f : Flag) (short : Bool) (attached : Text) :
    Except Refusal Reading :=
  if f.takesValue then
    if attached = "--" then .ok { r with options := f.applyToHyphens r.options }
    else do return { r with options := ← f.applyTo attached r.options }
  else if !short || attached.isEmpty then .error .usage
  else
    match cluster? attached with
    | none => .error .usage
    | some flags => do return { r with options := ← applyAll r.options (f :: flags) }

/-- A value that belongs to no option. -/
def enter (r : Reading) (text : Text) : Reading :=
  if r.entered then { r with leftOver := true }
  else { r with options := { r.options with entry := some text }, entered := true }

def readWords (r : Reading) : List Word → Except Refusal Reading
  | [] => .ok r
  | .divider :: rest =>
    if r.entered then .ok { r with leftOver := true } else readWords r rest
  | .value text :: .divider :: rest =>
    if r.entered then .ok { r with leftOver := true } else readWords (r.enter text) rest
  | .value text :: rest => readWords (r.enter text) rest
  | .unknown :: rest => readWords { r with leftOver := true } rest
  | .flag f short (some attached) :: rest => do readWords (← r.attach f short attached) rest
  | .flag f _ none :: rest =>
    if f.takesValue then
      match rest with
      | .value text :: rest => do
        readWords { r with options := ← f.applyTo text r.options } rest
      | _ => .error .usage
    else do readWords { r with options := ← f.apply r.options } rest

end Reading

/-- What a command line asks for. -/
def Options.ofArguments (arguments : List Text) : Except Refusal Options := do
  let r ← Reading.start.readWords (← Word.readAll arguments)
  if r.leftOver then .error .usage else return r.options

end RandomTables
