import RandomTables.Document.Yaml.Draft

/-!
# Nodes

A document as a tree whose nodes all have a tag, named in front of them or found from what they are.
An alias is replaced by the node under its anchor, which has to come before it and to be over
already; no two nodes have one anchor.
-/
namespace RandomTables.Yaml

/-- A part of a document whose scalars have no values yet. -/
inductive Node where
  | scalar (text : Text) (tag : Tag)
  | list (items : List Node) (tag : Tag)
  | map (pairs : List (Node × Node)) (tag : Tag)
  deriving Repr, Inhabited

/-- The nodes under the anchors so far. A node that is not over yet is missing. -/
abbrev Anchors := List (Text × Option Node)

namespace Node

/-- What the node is to be read as. -/
def tag : Node → Tag
  | scalar _ tag | list _ tag | map _ tag => tag

/-- The node with a tag that is named in front of it. An exclamation mark alone only says that a
scalar is to be read as it is spelled, also between quotes. -/
def withTag (name : Text) : Node → Node
  | scalar text _ => scalar text (if name = "!" then .ofSpelling text else .ofName name)
  | list items tag => list items (if name = "!" then tag else .ofName name)
  | map pairs tag => map pairs (if name = "!" then tag else .ofName name)

end Node

/-- The anchors with one that stands in front of a node, which comes next. -/
def Anchors.announce? (known : Anchors) (name : Text) : Option Anchors :=
  if (known.lookup name).isSome then none else some ((name, none) :: known)

namespace Draft

mutual

/-- The node that a part describes, and the anchors after it. -/
def settle? (p : Prolog) (known : Anchors) : Draft → Option (Node × Anchors)
  | scalar text plain => some (.scalar text (if plain then .ofSpelling text else .text), known)
  | list items => (settleItems? p known items).map fun found => (.list found.1 .list, found.2)
  | map pairs => (settlePairs? p known pairs).map fun found => (.map found.1 .map, found.2)
  | aliasOf name => (known.lookup name).join.map (·, known)
  | marked properties part => do
    let known ← match properties.anchor with
      | none => some known
      | some name => known.announce? name
    let (node, known) ← settle? p known part
    let node ← match properties.tag with
      | none => some node
      | some tag => (p.tagName? tag).map node.withTag
    some (node, match properties.anchor with
      | none => known
      | some name => (name, some node) :: known)

/-- The nodes that several parts describe. -/
def settleItems? (p : Prolog) (known : Anchors) : List Draft → Option (List Node × Anchors)
  | [] => some ([], known)
  | item :: rest => do
    let (item, known) ← settle? p known item
    let (items, known) ← settleItems? p known rest
    some (item :: items, known)

/-- The keys and values that several pairs describe. -/
def settlePairs? (p : Prolog) (known : Anchors) :
    List (Draft × Draft) → Option (List (Node × Node) × Anchors)
  | [] => some ([], known)
  | (k, v) :: rest => do
    let (k, known) ← settle? p known k
    let (v, known) ← settle? p known v
    let (pairs, known) ← settlePairs? p known rest
    some ((k, v) :: pairs, known)

end

end Draft

namespace Node

/-- The root of the only document in a text; an empty text has none. -/
def ofTokens? (ts : List Token) : Option (Option Node) :=
  if ts = [.streamEnd] then some none
  else do
    let (prolog, part) ← Draft.ofTokens? ts
    let (node, _) ← part.settle? prolog []
    some (some node)

/-- The tokens that close what some tokens leave open, from the inside out. Directives leave open
the document that they are about. -/
def closers (ts : List Token) : List Token :=
  ts.foldl (fun stack t =>
    match t with
    | .directive _ => [.documentStart]
    | .documentStart => []
    | .blockList | .blockMap => .blockEnd :: stack
    | .listOpen => .listClose :: stack
    | .mapOpen => .mapClose :: stack
    | .blockEnd | .listClose | .mapClose => stack.drop 1
    | _ => stack) []

/-- The tokens start a document that could go on. -/
def isStart (ts : List Token) : Bool := (ofTokens? (ts ++ closers ts ++ [.streamEnd])).isSome

end Node
end RandomTables.Yaml
