import RandomTables.Dice.Reader
import RandomTables.Quantity
import RandomTables.Text.Casing
import RandomTables.Text.Split

/-!
# Instructions

How a reference is to be rolled: how often, with which dice or total, what is added, which totals
are skipped, what is stored for later, and under which title. Instructions are read from options,
that is, from named values; the names are checked first, and the values then in a fixed order.
-/
namespace RandomTables

/-- How a reference is to be rolled. -/
structure Instructions where
  repeats : Option Quantity
  dice : Option Dice.Expr
  total : Option Quantity
  modifier : Option Quantity
  unique : Bool
  ignore : List Quantity
  store : Bindings Text
  title : Option Text
  deriving Repr, DecidableEq

/-- Why options are no instructions. -/
inductive OptionFault where
  | unknown (names : List Text)
  | unnamed
  | dice (error : Dice.ReadError)
  | quantity (fault : QuantityFault)
  | storeEntry (item : Document)
  deriving Repr, Inhabited

def OptionFault.message : OptionFault → Text
  | unknown names => "Unknown roll options: " ++ Text.joinWith ", " names
  | unnamed => "an option has no name"
  | dice (.malformed _ fault) => "invalid dice option: " ++ fault.message
  | dice (.numeral run) => Dice.numeralMessage run
  | quantity fault => fault.message
  | storeEntry item => "Invalid store entry " ++ item.literal

namespace Instructions

/-- Roll once, as the table says. -/
def plain : Instructions := ⟨none, none, none, none, false, [], .empty, none⟩

instance : Inhabited Instructions := ⟨plain⟩

def withRepeats (i : Instructions) (n : Int) : Instructions := { i with repeats := some (.fixed n) }

def optionNames : List Text :=
  ["roll", "dice", "total", "modifier", "unique", "ignore", "store", "title"]

/-- The items of an option that takes several: a list as it is, any other value as text with commas
between the items. -/
def itemsOf : Document → List Document
  | .scalar .null => []
  | .list items => items
  | d =>
    ((Text.split ',' d.display).filter fun s => !Text.allBlank s).map .text

/-- Add the entries `target:source` to a store; a target alone is its own source. -/
def storeItems (store : Bindings Text) : List Document → Except OptionFault (Bindings Text)
  | [] => .ok store
  | item :: rest =>
    let (before, after) := Text.cut ':' item.display
    let target := Text.trim before
    let source := Text.trim (after.getD [])
    if target.isEmpty then .error (.storeEntry item)
    else
      let source := if source.isEmpty then target else source
      storeItems (store.set target source) rest

/-- The store that a value describes: a map from targets to sources, or a list of entries. -/
def storeOf : Document → Except OptionFault (Bindings Text)
  | .map entries => .ok (.ofList (entries.map fun e => (e.1.display, e.2.display)))
  | d => storeItems .empty (itemsOf d)

/-- The value says yes: one of three words, or any other value that is set. -/
def saysYes : Document → Bool
  | .scalar (.text s) =>
    let word := Text.lower (Text.trim s)
    word = "true" || word = "yes" || word = "1"
  | d => d.isSet

/-- The names that are no option names, in the order of their characters. -/
def unknownNames (options : List (Scalar × Document)) : Except OptionFault Unit :=
  let strange := (options.map (·.1)).filter fun key =>
    !optionNames.any fun name => key == .text name
  if strange.isEmpty then .ok ()
  else if strange.any fun key => !(key matches .text _) then .error .unnamed
  else .error (.unknown ((strange.map Scalar.display).mergeSort fun a b => decide (a ≤ b)))

def quantityUnder (options : List (Scalar × Document)) (name : Text) :
    Except OptionFault (Option Quantity) :=
  match Document.present? options name with
  | none => .ok none
  | some value => (Quantity.ofDocument value).mapError .quantity |>.map some

def diceUnder (options : List (Scalar × Document)) : Except OptionFault (Option Dice.Expr) :=
  match Document.present? options "dice" with
  | none => .ok none
  | some value => (Dice.Expr.read value.display 0).mapError .dice |>.map some

/-- The instructions that options describe. -/
def ofOptions (options : List (Scalar × Document)) : Except OptionFault Instructions := do
  unknownNames options
  let repeats ← quantityUnder options "roll"
  let dice ← diceUnder options
  let total ← quantityUnder options "total"
  let modifier ← quantityUnder options "modifier"
  let unique := ((Document.entry? options "unique").map saysYes).getD false
  let ignore ← (itemsOf ((Document.entry? options "ignore").getD .null)).mapM fun item =>
    (Quantity.ofDocument item).mapError OptionFault.quantity
  let store ← storeOf ((Document.entry? options "store").getD .null)
  let title := (Document.present? options "title").map Document.display
  return ⟨repeats, dice, total, modifier, unique, ignore, store, title⟩

end Instructions
end RandomTables
