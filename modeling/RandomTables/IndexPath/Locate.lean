import RandomTables.IndexPath.Basic

/-!
# Following an index path

Following a path finds the target and the context in which it was rolled. A node is rolled one level
below the node that refers to it, with what its row stored on top of the variables, and with the
exports of every node before it in the same row or repeat on top of that.
-/
namespace RandomTables

/-- A target and the context in which it was rolled. -/
structure Location where
  context : Context
  target : Target

/-- The context of the node that follows `earlier` ones in a row or repeat. -/
def Context.ofChild (context : Context) (stored : Bindings Int) (earlier : List Node) : Context :=
  (context.child stored).after earlier

/-- The nodes before a position; a position below zero counts from the end. -/
def nodesBefore (index : Int) (nodes : List Node) : List Node :=
  if index < 0 then nodes.take (nodes.length - index.natAbs) else nodes.take index.toNat

def itemAt? {α : Type} (items : List α) (index : Int) : Option α :=
  if index < 0 then none else items[index.toNat]?

/-- A list has an item at an index exactly if it has one at that number. -/
theorem itemAt?_eq_some_iff {α : Type} {items : List α} {index : Int} {item : α} :
    itemAt? items index = some item ↔ ∃ n : Nat, index = n ∧ items[n]? = some item := by
  unfold itemAt?
  constructor
  · intro h
    by_cases hneg : index < 0
    · simp [hneg] at h
    · rw [if_neg hneg] at h
      exact ⟨index.toNat, by omega, h⟩
  · rintro ⟨n, rfl, h⟩
    rw [if_neg (by omega)]
    exact h

/-- Where a path leads from a node that was rolled in a context. -/
def Node.locate? (context : Context) : Node → IndexPath → Option Location
  | node, [] => some ⟨context, .node node⟩
  | .table roll, [i] =>
    (itemAt? roll.rows i).map fun row => ⟨context, .row roll i.toNat row⟩
  | .bundle roll, [i] =>
    (itemAt? roll.repeats i).map fun nodes => ⟨context, .nodes roll i.toNat nodes⟩
  | .table roll, i :: j :: rest =>
    match itemAt? roll.rows i with
    | some (.found row) =>
      match itemAt? row.nested j with
      | some node =>
        node.locate? (context.ofChild row.stored (row.nested.take j.toNat)) rest
      | none => none
    | _ => none
  | .bundle roll, i :: j :: rest =>
    match itemAt? roll.repeats i with
    | some nodes =>
      match itemAt? nodes j with
      | some node => node.locate? (context.ofChild .empty (nodes.take j.toNat)) rest
      | none => none
    | none => none
  | .leaf _ _, _ :: _ => none
termination_by structural _ path => path

/-- A row or repeat stands at its index in the table or bundle that holds it. -/
def Target.Stands : Target → Prop
  | node _ => True
  | row parent index found => parent.rows[index]? = some found
  | nodes parent index found => parent.repeats[index]? = some found

/-- What a path leads to stands where the target says. -/
theorem Node.stands_of_locate? {context : Context} {node : Node} {path : IndexPath} {l : Location}
    (h : node.locate? context path = some l) : l.target.Stands := by
  fun_induction Node.locate? context node path with
  | case1 context node =>
    obtain rfl := Option.some.inj h
    trivial
  | case2 context roll i =>
    obtain ⟨row, hitem, rfl⟩ := Option.map_eq_some_iff.1 h
    obtain ⟨index, rfl, hrow⟩ := itemAt?_eq_some_iff.1 hitem
    exact hrow
  | case3 context roll i =>
    obtain ⟨nodes, hitem, rfl⟩ := Option.map_eq_some_iff.1 h
    obtain ⟨index, rfl, hnodes⟩ := itemAt?_eq_some_iff.1 hitem
    exact hnodes
  | case4 context roll i j rest row hitem node hchild ih => exact ih h
  | case7 context roll i j rest nodes hitem node hchild ih => exact ih h
  | case5 => cases h
  | case6 => cases h
  | case8 => cases h
  | case9 => cases h
  | case10 => cases h

end RandomTables
