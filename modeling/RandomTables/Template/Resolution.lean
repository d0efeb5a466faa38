import RandomTables.Context
import RandomTables.Template.Component
import RandomTables.Template.Resolved

/-!
# Resolving templates

A template is resolved from left to right in one pass. Values are computed and noted on the way, so
that placeholders after them can be filled in with them. The blocks of one list share one draw of a
hundred, made when the first of them is reached: their chances are added up in order, and the first
block whose sum reaches the draw is selected. A selected block is a list of its own. References are
collected and not rolled.
-/
namespace RandomTables.Template

/-- What placeholders are filled in with besides the values of the pass itself. -/
structure Surroundings where
  context : Context
  inputs : Bindings (List Text)
  deriving Inhabited

/-- What a pass has come by so far: every value under its name, and the references. -/
structure Pass where
  values : Bindings (List Int)
  refs : List Reference
  deriving Inhabited

namespace Pass

def start : Pass := ⟨.empty, []⟩

def noteValue (p : Pass) (name : Text) (value : Int) : Pass :=
  { p with values := p.values.set name ((p.values.get? name).getD [] ++ [value]) }

def noteReference (p : Pass) (ref : Reference) : Pass := { p with refs := p.refs ++ [ref] }

end Pass

/-- The text behind a placeholder: the value of that number under its key, or else the input of
that number, or else, for the first number only, the variable. -/
def Surroundings.textUnder (s : Surroundings) (values : Bindings (List Int)) (key : Text)
    (index : Nat) : Option Text :=
  ((values.get? key).bind fun found => (found[index]?).map Text.integer)
    <|> ((s.inputs.get? key).bind fun found => found[index]?)
    <|> (if index = 0 then (s.context.vars.get? key).map Text.integer else none)

def Surroundings.fill (s : Surroundings) (values : Bindings (List Int)) (p : Placeholder) :
    Resolved :=
  match s.textUnder values p.key p.index with
  | none => .input p.key "" p.color p.background false
  | some text =>
    .input p.key ((p.transform.map fun t => t.apply text).getD text) p.color p.background true

/-- The shared draw of a list of blocks, once it is made, the sum of the chances so far, and whether
a block has been selected. -/
structure Chances where
  drawn : Option Int
  reached : Nat
  decided : Bool
  deriving Repr, DecidableEq, Inhabited

namespace Chances

/-- No block has been reached. -/
def start : Chances := ⟨none, 0, false⟩

/-- The shared draw, made now if no block has been reached before. -/
def draw (source : Source) (c : Chances) : Roll Int :=
  match c.drawn with
  | some drawn => return drawn
  | none => do
    let rolled ← Roll.percentile source "percent chance"
    return rolled.total

/-- Whether the next block is selected, given its chance. -/
def next (source : Source) (c : Chances) (chance : Nat) : Roll (Bool × Chances) := do
  let drawn ← c.draw source
  if c.decided then return (false, { c with drawn := some drawn })
  else
    let reached := c.reached + chance
    let selected : Bool := drawn ≤ reached
    return (selected, ⟨some drawn, reached, selected⟩)

end Chances

mutual

def resolveOne (source : Source) (s : Surroundings) (chances : Chances) (pass : Pass) :
    Component → Roll (Resolved × Chances × Pass)
  | .plain text => return (.plain text, chances, pass)
  | .input placeholder => return (s.fill pass.values placeholder, chances, pass)
  | .computed name expr => do
    let (total, groups) ← expr.evaluate source ("computed value " ++ name)
    return (.value name total groups, chances, pass.noteValue name total)
  | .percent chance label inner => do
    let (selected, chances) ← chances.next source chance
    if selected then
      let (text, pass) ← resolveAll source s .start pass inner
      return (.percent label chance true text, chances, pass)
    else return (.percent label chance false [], chances, pass)
  | .reference ref name =>
    return (.reference pass.refs.length name, chances, pass.noteReference ref)

/-- Resolve the components of a list from left to right. -/
def resolveAll (source : Source) (s : Surroundings) (chances : Chances) (pass : Pass) :
    List Component → Roll (List Resolved × Pass)
  | [] => return ([], pass)
  | component :: rest => do
    let (piece, chances, pass) ← resolveOne source s chances pass component
    let (more, pass) ← resolveAll source s chances pass rest
    return (piece :: more, pass)

end

/-- A store applied to the values of a pass: each target gets the last value of its source, or else
the variable of that name, and is left out if there is neither. -/
def storedOf (store : Bindings Text) (values : Bindings (List Int)) (context : Context) :
    Bindings Int :=
  .ofList <| store.entries.filterMap fun (target, source) =>
    ((values.get? source).bind List.getLast? <|> context.vars.get? source).map fun n => (target, n)

/-- What a template has come to. -/
structure Resolution where
  text : List Resolved
  refs : List Reference
  values : Bindings (List Int)
  stored : Bindings Int
  deriving Inhabited

def resolve (source : Source) (s : Surroundings) (store : Bindings Text)
    (template : List Component) : Roll Resolution := do
  let (text, pass) ← resolveAll source s .start .start template
  return ⟨text, pass.refs, pass.values, storedOf store pass.values s.context⟩

end RandomTables.Template
