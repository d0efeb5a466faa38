import RandomTables.Disk.PathName
import RandomTables.IndexPath.Basic

/-!
# Options of the command line

Every option has one or two names. Some stand for themselves, others take a value. Two hyphens that
are attached to a name with an equals sign are no value: the option then has an empty list of them.
-/
namespace RandomTables

/-- What an option was given: a value, or two hyphens in place of one. -/
inductive Given (α : Type) where
  | value (a : α)
  | hyphens
  deriving Repr, DecidableEq, Inhabited

def Given.value? {α : Type} : Given α → Option α
  | value a => some a
  | hyphens => none

/-- What the command line asks for. -/
structure Options where
  tables : Given PathName
  entry : Option Text
  seed : Option (Given Int)
  list : Bool
  filters : List (Given Text)
  archive : Option (Given PathName)
  rerolls : List IndexPath
  tree : Bool
  replay : Option (Given PathName)
  showLog : Bool
  saveLog : Option (Given PathName)
  verbose : Bool
  deriving Repr, DecidableEq

namespace Options

/-- What an empty command line asks for. -/
def usual : Options where
  tables := .value (.read "tables")
  entry := none
  seed := none
  list := false
  filters := []
  archive := none
  rerolls := []
  tree := false
  replay := none
  showLog := false
  saveLog := none
  verbose := false

instance : Inhabited Options := ⟨usual⟩

end Options

/-- The options that can be given. -/
inductive Flag where
  | help
  | tables
  | seed
  | verbose
  | list
  | filter
  | archive
  | reroll
  | tree
  | replay
  | showLog
  | saveLog
  deriving Repr, DecidableEq, Inhabited

/-- Why a command line is not carried out: it asks for help, or it is misused. -/
inductive Refusal where
  | help
  | usage
  deriving Repr, DecidableEq, Inhabited

def Refusal.exitCode : Refusal → Nat
  | help => 0
  | usage => 2

namespace Flag

def names : List (Text × Flag) :=
  [("-h", help), ("--help", help), ("--tables", tables), ("--seed", seed), ("-v", verbose),
    ("--verbose", verbose), ("--list", list), ("--filter", filter), ("--export", archive),
    ("--reroll", reroll), ("--tree", tree), ("--replay", replay), ("--show-log", showLog),
    ("--save-log", saveLog)]

def ofName? (name : Text) : Option Flag := names.lookup name

def takesValue : Flag → Bool
  | tables | seed | filter | archive | reroll | replay | saveLog => true
  | help | verbose | list | tree | showLog => false

/-- Carry out an option that takes no value. -/
def apply (f : Flag) (o : Options) : Except Refusal Options :=
  match f with
  | help => .error .help
  | verbose => .ok { o with verbose := true }
  | list => .ok { o with list := true }
  | tree => .ok { o with tree := true }
  | showLog => .ok { o with showLog := true }
  | _ => .error .usage

/-- Carry out an option that takes a value. -/
def applyTo (f : Flag) (value : Text) (o : Options) : Except Refusal Options :=
  match f with
  | tables => .ok { o with tables := .value (.read value) }
  | seed =>
    match Text.integer? value with
    | some n => .ok { o with seed := some (.value n) }
    | none => .error .usage
  | filter => .ok { o with filters := o.filters ++ [.value value] }
  | archive => .ok { o with archive := some (.value (.read value)) }
  | reroll =>
    match IndexPath.read? value with
    | some path => .ok { o with rerolls := o.rerolls ++ [path] }
    | none => .error .usage
  | replay => .ok { o with replay := some (.value (.read value)) }
  | saveLog => .ok { o with saveLog := some (.value (.read value)) }
  | _ => .error .usage

/-- Carry out an option that takes a value and was given two hyphens. An index path of no numbers
leads to the root. -/
def applyToHyphens (f : Flag) (o : Options) : Options :=
  match f with
  | tables => { o with tables := .hyphens }
  | seed => { o with seed := some .hyphens }
  | filter => { o with filters := o.filters ++ [.hyphens] }
  | archive => { o with archive := some .hyphens }
  | reroll => { o with rerolls := o.rerolls ++ [[]] }
  | replay => { o with replay := some .hyphens }
  | saveLog => { o with saveLog := some .hyphens }
  | _ => o

end Flag
end RandomTables
