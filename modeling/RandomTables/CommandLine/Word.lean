import RandomTables.CommandLine.Options

/-!
# Words of the command line

Each word is read on its own first: it is the name of an option or the start of exactly one long
name, perhaps with a value after an equals sign; or several short names in one; or a value. A
negative number is a value, and so is a word with a space in it. After two hyphens every word is a
value.
-/
namespace RandomTables

/-- A word of the command line. The name of an option may have a text attached to it. -/
inductive Word where
  | value (text : Text)
  | flag (flag : Flag) (short : Bool) (attached : Option Text)
  | unknown
  | divider
  deriving Repr, DecidableEq

namespace Word

def allDigits (s : Text) : Bool := !s.isEmpty && s.all Text.isDecimal

def isNegativeNumber : Text → Bool
  | .char '-' :: s =>
    let s := if s.getLast? = some (.char '\n') then s.dropLast else s
    match Text.cut '.' s with
    | (whole, none) => allDigits whole
    | (whole, some decimals) => whole.all Text.isDecimal && allDigits decimals
  | _ => false

/-- The name has two hyphens in front. -/
def isLong (s : Text) : Bool := s.startsWith "--"

/-- The options that a word, which is no full name, can be short for. -/
def candidates (s : Text) : List Word :=
  if isLong s then
    let (start, after) := Text.cut '=' s
    (Flag.names.filter fun e => start.isPrefixOf e.1).map fun e =>
      .flag e.2 false after
  else
    match Flag.ofName? (s.take 2) with
    | some f => [.flag f true (some (s.drop 2))]
    | none => []

/-- A word that starts with a hyphen and is no option. -/
def ofStranger (s : Text) : Word :=
  if isNegativeNumber s || s.contains ' ' then .value s else .unknown

/-- A word in front of the divider. -/
def read (s : Text) : Except Refusal Word :=
  if s.head? ≠ some (.char '-') then .ok (.value s)
  else
    match Flag.ofName? s with
    | some f => .ok (.flag f (!isLong s) none)
    | none =>
      if s.length = 1 then .ok (.value s)
      else
        match Text.cut '=' s with
        | (name, some text) =>
          match Flag.ofName? name with
          | some f => .ok (.flag f (!isLong name) (some text))
          | none => choose s
        | (_, none) => choose s
where
  /-- The only option that the word can be short for. -/
  choose (s : Text) : Except Refusal Word :=
    match candidates s with
    | [] => .ok (ofStranger s)
    | [word] => .ok word
    | _ => .error .usage

def readAll : List Text → Except Refusal (List Word)
  | [] => .ok []
  | s :: rest =>
    if s = "--" then .ok (.divider :: rest.map .value)
    else do
      let word ← read s
      let words ← readAll rest
      return word :: words

end Word
end RandomTables
