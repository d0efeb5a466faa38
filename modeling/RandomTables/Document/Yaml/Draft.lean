import RandomTables.Document.Yaml.Tag
import RandomTables.Document.Yaml.Token

/-!
# Drafts

A document as it is written: a tree of scalars, lists and maps with the properties in front of them,
read from its tokens by descent. An entry, key or value that is left out is an empty plain scalar.
An alias stands for a node that an anchor names.
-/
namespace RandomTables.Yaml

/-- A part of a document as it is written. -/
inductive Draft where
  | scalar (text : Text) (plain : Bool)
  | list (items : List Draft)
  | map (pairs : List (Draft × Draft))
  | aliasOf (name : Text)
  | marked (properties : Properties) (part : Draft)
  deriving Repr, Inhabited

/-- What the directives in front of a document say. -/
structure Prolog where
  versioned : Bool
  handles : List (Text × Text)
  deriving Repr, Inhabited

namespace Draft

/-- What stands for a part that is left out. -/
def blank : Draft := scalar "" true

/-- The properties in front of a part, in either order, if there are any. -/
def properties? : List Token → Option (Properties × List Token)
  | .anchor name :: .tag tag :: ts => some (⟨some name, some tag⟩, ts)
  | .tag tag :: .anchor name :: ts => some (⟨some name, some tag⟩, ts)
  | .anchor name :: ts => some (⟨some name, none⟩, ts)
  | .tag tag :: ts => some (⟨none, some tag⟩, ts)
  | _ => none

/-- A part that is written out starts here. -/
def startsPart (block hanging : Bool) : List Token → Bool
  | .scalar .. :: _ | .listOpen :: _ | .mapOpen :: _ => true
  | .blockList :: _ | .blockMap :: _ => block
  | .entry :: _ => hanging
  | _ => false

/-- The next token is one of those given. -/
def nextIn (stops : List Token) : List Token → Bool
  | [] => false
  | t :: _ => stops.contains t

mutual

/-- A part that is written out, in a block or between brackets, and the tokens after it. With
`hanging`, the entries of a list may stand here without a block of their own. Descending never takes
more steps than there are tokens to spend, four for each. -/
def readPart? (steps : Nat) (block hanging : Bool) (ts : List Token) :
    Option (Draft × List Token) :=
  match steps, ts with
  | 0, _ => none
  | _ + 1, .scalar text plain :: ts => some (scalar text plain, ts)
  | steps + 1, .listOpen :: ts => (flowItems? steps true ts).map fun p => (list p.1, p.2)
  | steps + 1, .mapOpen :: ts => (flowPairs? steps true ts).map fun p => (map p.1, p.2)
  | steps + 1, .blockList :: ts =>
    if block then (blockItems? steps ts).map fun p => (list p.1, p.2) else none
  | steps + 1, .blockMap :: ts =>
    if block then (blockPairs? steps ts).map fun p => (map p.1, p.2) else none
  | steps + 1, .entry :: ts =>
    if hanging then (hangingItems? steps (.entry :: ts)).map fun p => (list p.1, p.2) else none
  | _, _ => none

/-- An alias, or a part with the properties in front of it, which may be left out after them. -/
def read? (steps : Nat) (block hanging : Bool) (ts : List Token) : Option (Draft × List Token) :=
  match steps, ts with
  | 0, _ => none
  | _ + 1, .aliasOf name :: ts => some (aliasOf name, ts)
  | steps + 1, ts =>
    match properties? ts with
    | none => readPart? steps block hanging ts
    | some (properties, ts) =>
      if startsPart block hanging ts then
        (readPart? steps block hanging ts).map fun p => (marked properties p.1, p.2)
      else some (marked properties blank, ts)

/-- A part, or a blank one before one of the tokens in `stops`. -/
def readUnless? (steps : Nat) (stops : List Token) (block hanging : Bool) (ts : List Token) :
    Option (Draft × List Token) :=
  match steps with
  | 0 => none
  | steps + 1 => if nextIn stops ts then some (blank, ts) else read? steps block hanging ts

/-- The entries of a list up to the end of its block. -/
def blockItems? (steps : Nat) (ts : List Token) : Option (List Draft × List Token) :=
  match steps, ts with
  | steps + 1, .entry :: ts => do
    let (item, ts) ← readUnless? steps [.entry, .blockEnd] true false ts
    let (items, ts) ← blockItems? steps ts
    some (item :: items, ts)
  | _ + 1, .blockEnd :: ts => some ([], ts)
  | _, _ => none

/-- The entries of a list that has no block of its own. -/
def hangingItems? (steps : Nat) (ts : List Token) : Option (List Draft × List Token) :=
  match steps, ts with
  | 0, _ => none
  | steps + 1, .entry :: ts => do
    let (item, ts) ← readUnless? steps [.entry, .key, .value, .blockEnd] true false ts
    let (items, ts) ← hangingItems? steps ts
    some (item :: items, ts)
  | _ + 1, ts => some ([], ts)

/-- The value after a key, which may be left out together with its colon. -/
def valueAfter? (steps : Nat) (stops : List Token) (block : Bool) (ts : List Token) :
    Option (Draft × List Token) :=
  match steps, ts with
  | 0, _ => none
  | steps + 1, .value :: ts => readUnless? steps stops block block ts
  | _ + 1, ts => some (blank, ts)

/-- The pairs of a map up to the end of its block. -/
def blockPairs? (steps : Nat) (ts : List Token) : Option (List (Draft × Draft) × List Token) :=
  match steps, ts with
  | steps + 1, .key :: ts => do
    let stops : List Token := [.key, .value, .blockEnd]
    let (k, ts) ← readUnless? steps stops true true ts
    let (v, ts) ← valueAfter? steps stops true ts
    let (pairs, ts) ← blockPairs? steps ts
    some ((k, v) :: pairs, ts)
  | _ + 1, .blockEnd :: ts => some ([], ts)
  | _, _ => none

/-- The items of a list up to its closing bracket, the first of them with no comma before it. -/
def flowItems? (steps : Nat) (first : Bool) (ts : List Token) :
    Option (List Draft × List Token) :=
  match steps with
  | 0 => none
  | steps + 1 =>
    if nextIn [.listClose] ts then some ([], ts.drop 1)
    else if !first && !nextIn [.comma] ts then none
    else
      let ts := if first then ts else ts.drop 1
      match ts with
      | .listClose :: ts => some ([], ts)
      | .key :: ts => do
        let (k, ts) ← readUnless? steps [.value, .comma, .listClose] false false ts
        let (v, ts) ← valueAfter? steps [.comma, .listClose] false ts
        let (items, ts) ← flowItems? steps false ts
        some (map [(k, v)] :: items, ts)
      | ts => do
        let (item, ts) ← read? steps false false ts
        let (items, ts) ← flowItems? steps false ts
        some (item :: items, ts)

/-- The pairs of a map up to its closing bracket, the first of them with no comma before it. -/
def flowPairs? (steps : Nat) (first : Bool) (ts : List Token) :
    Option (List (Draft × Draft) × List Token) :=
  match steps with
  | 0 => none
  | steps + 1 =>
    if nextIn [.mapClose] ts then some ([], ts.drop 1)
    else if !first && !nextIn [.comma] ts then none
    else
      let ts := if first then ts else ts.drop 1
      match ts with
      | .mapClose :: ts => some ([], ts)
      | .key :: ts => do
        let (k, ts) ← readUnless? steps [.value, .comma, .mapClose] false false ts
        let (v, ts) ← valueAfter? steps [.comma, .mapClose] false ts
        let (pairs, ts) ← flowPairs? steps false ts
        some ((k, v) :: pairs, ts)
      | ts => do
        let (k, ts) ← read? steps false false ts
        let (pairs, ts) ← flowPairs? steps false ts
        some ((k, blank) :: pairs, ts)

end

end Draft

namespace Prolog

/-- What holds where no directive says anything. -/
def start : Prolog := ⟨false, []⟩

/-- One directive more: no second version, none but the first, and no second meaning of a handle. -/
def add? (p : Prolog) : Directive → Option Prolog
  | .version major => if p.versioned || major ≠ 1 then none else some { p with versioned := true }
  | .handle name start =>
    if (p.handles.lookup name).isSome then none
    else some { p with handles := (name, start) :: p.handles }
  | .other => some p

/-- The handles that stand for something without a directive. -/
def givenHandles : List (Text × Text) := [("!", "!"), ("!!", Tag.commonStart)]

/-- What a handle stands for. -/
def meaning? (p : Prolog) (handle : Text) : Option Text :=
  (p.handles ++ givenHandles).lookup handle

/-- The whole name of a tag, whose handle needs a meaning. -/
def tagName? (p : Prolog) (tag : WrittenTag) : Option Text :=
  match tag.handle with
  | none => some tag.rest
  | some handle => (p.meaning? handle).map (· ++ tag.rest)

/-- The directives and the mark that start a document, and the tokens after them. -/
def read? (p : Prolog) : List Token → Option (Prolog × List Token)
  | .directive found :: ts => (p.add? found).bind fun p => p.read? ts
  | .documentStart :: ts => some (p, ts)
  | _ => none

end Prolog

namespace Draft

/-- A document starts with a mark or with directives. -/
def startsMarked : List Token → Bool
  | .directive _ :: _ | .documentStart :: _ => true
  | _ => false

/-- The tokens are at their end, except for marks that end the document. -/
def atEnd (ts : List Token) : Bool := ts.dropWhile (· == .documentEnd) == [.streamEnd]

/-- The only document in a text with tokens in it. -/
def ofTokens? (ts : List Token) : Option (Prolog × Draft) := do
  let steps := 5 * ts.length + 5
  let (prolog, part, rest) ←
    if startsMarked ts then do
      let (prolog, ts) ← Prolog.start.read? ts
      let part ← readUnless? steps [.documentStart, .documentEnd, .streamEnd] true false ts
      some (prolog, part)
    else (read? steps true false ts).map fun part => (Prolog.start, part)
  if atEnd rest then some (prolog, part) else none

end Draft
end RandomTables.Yaml
