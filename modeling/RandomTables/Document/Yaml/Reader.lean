import RandomTables.Document.Yaml.Node
import RandomTables.Document.Yaml.Scalar

/-!
# Reading YAML

A text is cut into tokens, the tokens are read as a tree of nodes, and the nodes are interpreted as
their tags say. A map takes in the entries of the maps under its merge keys, in front of its own; of
equal keys the last counts, and a key has to be a scalar.
-/
namespace RandomTables.Yaml

def Node.isMerge (node : Node) : Bool := node.tag == .merge

mutual

/-- The pairs that a map takes in by its merge keys, and its own. -/
def splitPairs : List (Node × Node) → Except Fault (List (Node × Node) × List (Node × Node))
  | [] => .ok ([], [])
  | (k, v) :: rest => do
    let taken ← if k.isMerge then mergedPairs v else .ok []
    let (merged, own) ← splitPairs rest
    return (taken ++ merged, if k.isMerge then own else (k, v) :: own)

/-- The pairs of the map or maps under a merge key. -/
def mergedPairs : Node → Except Fault (List (Node × Node))
  | .map pairs _ => (splitPairs pairs).map fun p => p.1 ++ p.2
  | .list items _ => mergedItems items
  | _ => .error .unreadable

/-- The pairs of several maps, those of the first map last. -/
def mergedItems : List Node → Except Fault (List (Node × Node))
  | [] => .ok []
  | .map pairs _ :: rest => do
    let (merged, own) ← splitPairs pairs
    let more ← mergedItems rest
    return more ++ merged ++ own
  | _ :: _ => .error .unreadable

end

def keyValue : Node → Except Fault Scalar
  | .scalar text tag => if tag = .default then .ok (.text text) else tag.scalar text
  | _ => .error .unreadable

mutual

/-- The value of a node. Nodes are never nested deeper than `depth`. -/
def value (depth : Nat) : Node → Except Fault Document
  | .scalar text tag => (tag.scalar text).map .scalar
  | .list items .list =>
    match depth with
    | 0 => .error .unreadable
    | depth + 1 => (values depth items).map .list
  | .map pairs .map =>
    match depth with
    | 0 => .error .unreadable
    | depth + 1 => do
      let (merged, own) ← splitPairs pairs
      return .ofEntries (← entries depth (merged ++ own))
  | _ => .error .unreadable

def values (depth : Nat) : List Node → Except Fault (List Document)
  | [] => .ok []
  | node :: rest => do
    let item ← value depth node
    let items ← values depth rest
    return item :: items

/-- The keys and values of several pairs. -/
def entries (depth : Nat) : List (Node × Node) → Except Fault (List (Scalar × Document))
  | [] => .ok []
  | (k, v) :: rest => do
    let k ← keyValue k
    let v ← value depth v
    let more ← entries depth rest
    return (k, v) :: more

end

/-- The node is to be read as a list or a map, whatever it is. Its parts come later. -/
def Node.hasParts (node : Node) : Bool := node.tag == .list || node.tag == .map

/-- The nodes with parts among some nodes, after the others have been interpreted. -/
def innerNodes : List Node → Except Fault (List Node)
  | [] => .ok []
  | node :: rest =>
    if node.hasParts then (innerNodes rest).map (node :: ·)
    else do
      let _ ← value 0 node
      innerNodes rest

/-- The nodes with parts among the values of some pairs, after keys and other values have been
interpreted. -/
def innerValues : List (Node × Node) → Except Fault (List Node)
  | [] => .ok []
  | (k, v) :: rest => do
    let _ ← keyValue k
    let here ← innerNodes [v]
    let more ← innerValues rest
    return here ++ more

/-- The nodes with parts directly inside a node, which has to be what its tag says. -/
def Node.inside : Node → Except Fault (List Node)
  | .list items .list => innerNodes items
  | .map pairs .map => do
    let (merged, own) ← splitPairs pairs
    innerValues (merged ++ own)
  | _ => .error .unreadable

/-- Look for faults level by level, from the outside in, in nodes with parts that are nested no
deeper than `depth`. -/
def checkLevels : (depth : Nat) → List Node → Except Fault Unit
  | _, [] => .ok ()
  | 0, _ => .error .unreadable
  | depth + 1, nodes => do
    let inner ← nodes.mapM Node.inside
    checkLevels depth inner.flatten

/-- Why tokens are no document. -/
def faultOf (ts : List Token) : Fault :=
  match ts.getLast? with
  | some (.broken n) =>
    if Node.isStart ts.dropLast then .scalar (.codePoint n) else .unreadable
  | _ => .unreadable

/-- The value of a whole text; an empty text is null. Of several faults the outermost counts. -/
def read (s : Text) : Except Fault Document :=
  match tokens? s with
  | none => .error .unreadable
  | some ts =>
    match Node.ofTokens? ts with
    | none => .error (faultOf ts)
    | some none => .ok .null
    | some (some node) => do
      checkLevels (s.length + 1) (← innerNodes [node])
      value (s.length + 1) node

end RandomTables.Yaml
