import RandomTables.IndexPath.Replace

/-!
# One index at a time

Paths go down an outcome by two indices at once, from a node to a node. Here they go by one: an
index leads from a node to a row or repeat, and from a row or repeat to a node. At one index the
laws of reading and writing are those of a list. Finding a part and replacing it repeat such a step,
so that what holds of both follows by induction on the path.
-/
namespace RandomTables

/-! ## Items of a list -/

section
variable {α : Type} {items : List α} {index other : Int} {item found new newer : α}

theorem setAt_of_itemAt? (h : itemAt? items index = some item) :
    setAt items index item = items := by
  obtain ⟨number, rfl, hitem⟩ := itemAt?_eq_some_iff.1 h
  obtain ⟨hlt, rfl⟩ := List.getElem?_eq_some_iff.1 hitem
  rw [setAt, Int.toNat_natCast, List.set_getElem_self]

theorem itemAt?_setAt_self (h : itemAt? items index = some item) :
    itemAt? (setAt items index new) index = some new := by
  obtain ⟨number, rfl, hitem⟩ := itemAt?_eq_some_iff.1 h
  obtain ⟨hlt, _⟩ := List.getElem?_eq_some_iff.1 hitem
  exact itemAt?_eq_some_iff.2 ⟨number, rfl, List.getElem?_set_self hlt⟩

theorem itemAt?_setAt_of_ne (h : itemAt? items index = some item) (hne : index ≠ other) :
    itemAt? (setAt items index new) other = itemAt? items other := by
  obtain ⟨number, rfl, _⟩ := itemAt?_eq_some_iff.1 h
  unfold itemAt?
  split
  · rfl
  · exact List.getElem?_set_ne (by omega)

theorem setAt_setAt : setAt (setAt items index new) index newer = setAt items index newer :=
  List.set_set ..

theorem setAt_comm (h : itemAt? items index = some item) (hother : itemAt? items other = some found)
    (hne : index ≠ other) :
    setAt (setAt items index new) other newer = setAt (setAt items other newer) index new := by
  obtain ⟨number, rfl, _⟩ := itemAt?_eq_some_iff.1 h
  obtain ⟨_, rfl, _⟩ := itemAt?_eq_some_iff.1 hother
  exact List.set_comm _ _ (by omega)

/-- The items up to an index stay if the item that changes does not stand before it. -/
theorem take_setAt (h : other ≤ index) :
    (setAt items index new).take other.toNat = items.take other.toNat :=
  List.take_set_of_le (by omega)

end

namespace Piece

/-! ## One index -/

/-- What a piece is. -/
inductive Kind where
  | node
  | row
  | nodes
  deriving DecidableEq

def kind : Piece → Kind
  | node _ => .node
  | row _ => .row
  | nodes _ => .nodes

/-- The part of a piece at an index. -/
def item? : Piece → Int → Option Piece
  | node (.table roll), i => (itemAt? roll.rows i).map row
  | node (.bundle roll), i => (itemAt? roll.repeats i).map nodes
  | row (.found content), i => (itemAt? content.nested i).map node
  | nodes items, i => (itemAt? items i).map node
  | _, _ => none

/-- The piece with another part at an index; nothing if a part of this kind cannot stand there. -/
def set? : Piece → Int → Piece → Option Piece
  | node (.table roll), i, row new =>
    some (node (.table { roll with rows := setAt roll.rows i new }))
  | node (.bundle roll), i, nodes new =>
    some (node (.bundle { roll with repeats := setAt roll.repeats i new }))
  | row (.found content), i, node new =>
    some (row (.found { content with nested := setAt content.nested i new }))
  | nodes items, i, node new => some (nodes (setAt items i new))
  | _, _, _ => none

/-- The context of the part at an index of a piece. The nodes of a row or repeat are one level
down. -/
def below (piece : Piece) (context : Context) (i : Int) : Context :=
  match piece with
  | row (.found content) => context.ofChild content.stored (content.nested.take i.toNat)
  | nodes items => context.ofChild .empty (items.take i.toNat)
  | _ => context

variable {piece changed final part other new newer : Piece} {i j : Int}

/-- With a part put at an index of a piece, that part stands there, the other parts stand where they
stood, the piece is what it was, and so is the context of every part up to that index. -/
structure PutAt (piece : Piece) (i : Int) (new changed : Piece) : Prop where
  kind_eq : changed.kind = piece.kind
  item_eq : changed.item? i = some new
  item_eq_of_ne {j : Int} : i ≠ j → changed.item? j = piece.item? j
  below_eq {j : Int} (context : Context) :
    j ≤ i ∨ piece.kind = .node → changed.below context j = piece.below context j

theorem putAt_of_set? (h : piece.set? i new = some changed) (hitem : piece.item? i = some part) :
    piece.PutAt i new changed := by
  revert h
  fun_cases set? piece i new with
  | case1 | case2 =>
    rintro ⟨⟩
    obtain ⟨old, hold, rfl⟩ := Option.map_eq_some_iff.1 hitem
    exact ⟨rfl, by simp only [item?, itemAt?_setAt_self hold, Option.map_some],
      fun hne => by simp only [item?, itemAt?_setAt_of_ne hold hne], fun _ _ => rfl⟩
  | case3 | case4 =>
    rintro ⟨⟩
    obtain ⟨old, hold, rfl⟩ := Option.map_eq_some_iff.1 hitem
    refine ⟨rfl, by simp only [item?, itemAt?_setAt_self hold, Option.map_some],
      fun hne => by simp only [item?, itemAt?_setAt_of_ne hold hne], fun _ hj => ?_⟩
    rcases hj with hj | hj
    · simp only [below, take_setAt hj]
    · cases hj
  | case5 => exact nofun

/-- A part of the same kind can be put in the place of another one. -/
theorem exists_set? (hitem : piece.item? i = some part) (hkind : part.kind = new.kind) :
    ∃ changed, piece.set? i new = some changed := by
  revert hitem
  fun_cases item? piece i with
  | case1 | case2 | case3 | case4 =>
    intro hitem
    obtain ⟨_, _, rfl⟩ := Option.map_eq_some_iff.1 hitem
    cases new <;> first | cases hkind; done | exact ⟨_, rfl⟩
  | case5 => exact nofun

/-- A part can take its own place, where it changes nothing. -/
theorem set?_of_item? (hitem : piece.item? i = some part) : piece.set? i part = some piece := by
  revert hitem
  fun_cases item? piece i with
  | case1 holder | case2 holder | case3 holder =>
    intro hitem
    obtain ⟨old, hold, rfl⟩ := Option.map_eq_some_iff.1 hitem
    cases holder
    simp only [set?, setAt_of_itemAt? hold]
  | case4 items =>
    intro hitem
    obtain ⟨old, hold, rfl⟩ := Option.map_eq_some_iff.1 hitem
    simp only [set?, setAt_of_itemAt? hold]
  | case5 => exact nofun

/-- Of two parts put at an index the second one counts. -/
theorem set?_set? (h : piece.set? i new = some changed) :
    changed.set? i newer = piece.set? i newer := by
  revert h
  fun_cases set? piece i new with
  | case1 | case2 | case3 | case4 =>
    rintro ⟨⟩
    cases newer <;> simp only [set?, setAt_setAt]
  | case5 => exact nofun

/-- Parts at two indices can be put there in either order. -/
theorem set?_comm {mid : Piece} (hne : i ≠ j) (hitem : piece.item? i = some part)
    (hother : piece.item? j = some other) (h : piece.set? i new = some mid)
    (h' : mid.set? j newer = some final) :
    ∃ mid', piece.set? j newer = some mid' ∧ mid'.set? i new = some final := by
  revert h
  fun_cases set? piece i new with
  | case1 | case2 | case3 | case4 =>
    rintro ⟨⟩
    obtain ⟨_, hold, rfl⟩ := Option.map_eq_some_iff.1 hitem
    obtain ⟨_, hold', rfl⟩ := Option.map_eq_some_iff.1 hother
    cases newer <;> first
      | cases h'; done
      | (obtain rfl := Option.some.inj h'
         exact ⟨_, rfl, by simp only [set?, setAt_comm hold hold' hne]⟩)
  | case5 => exact nofun

/-! ## A path -/

/-- The part of a piece that a path leads to. -/
def follow? : Piece → IndexPath → Option Piece
  | piece, [] => some piece
  | piece, i :: rest => (piece.item? i).bind fun part => part.follow? rest

/-- The context of the part that a path leads to. -/
def contextAt (context : Context) : Piece → IndexPath → Context
  | _, [] => context
  | piece, i :: rest =>
    match piece.item? i with
    | some part => part.contextAt (piece.below context i) rest
    | none => context

/-- The piece with another part in place of the one that a path leads to. -/
def replace? : Piece → Piece → IndexPath → Option Piece
  | old, new, [] => if old.kind = new.kind then some new else none
  | piece, new, i :: rest =>
    (piece.item? i).bind fun part => (part.replace? new rest).bind (piece.set? i)

variable {path front rest : IndexPath}

theorem follow?_append (piece : Piece) (front rest : IndexPath) :
    piece.follow? (front ++ rest) = (piece.follow? front).bind fun part => part.follow? rest := by
  induction front generalizing piece with
  | nil => rfl
  | cons i front ih =>
    simp only [List.cons_append, follow?]
    cases piece.item? i with
    | none => rfl
    | some part => exact ih part

theorem contextAt_append (context : Context) (h : piece.follow? front = some part) :
    piece.contextAt context (front ++ rest) =
      part.contextAt (piece.contextAt context front) rest := by
  induction front generalizing piece context with
  | nil =>
    obtain rfl := Option.some.inj h
    rfl
  | cons i front ih =>
    obtain ⟨next, hitem, hfollow⟩ := Option.bind_eq_some_iff.1 h
    simp only [List.cons_append, contextAt, hitem]
    exact ih _ hfollow

theorem replace?_cons_eq_some_iff :
    piece.replace? new (i :: rest) = some changed ↔ ∃ part part', piece.item? i = some part ∧
      part.replace? new rest = some part' ∧ piece.set? i part' = some changed := by
  simp only [replace?, Option.bind_eq_some_iff]
  constructor
  · rintro ⟨part, hitem, part', hpart, hset⟩
    exact ⟨part, part', hitem, hpart, hset⟩
  · rintro ⟨part, part', hitem, hpart, hset⟩
    exact ⟨part, hitem, part', hpart, hset⟩

/-- A replacement leaves a piece of the same kind. -/
theorem kind_of_replace? (h : piece.replace? new path = some changed) :
    changed.kind = piece.kind := by
  cases path with
  | nil =>
    obtain ⟨hkind, ⟨⟩⟩ := Option.ite_none_right_eq_some.1 h
    exact hkind.symm
  | cons i rest =>
    obtain ⟨part, part', hitem, _, hset⟩ := replace?_cons_eq_some_iff.1 h
    exact (putAt_of_set? hset hitem).kind_eq

/-- A part can be replaced exactly by pieces of its kind, and nothing can be put where there is no
part. -/
theorem exists_replace?_iff :
    (∃ changed, piece.replace? new path = some changed) ↔
      ∃ part, piece.follow? path = some part ∧ part.kind = new.kind := by
  induction path generalizing piece with
  | nil => simp [replace?, follow?]
  | cons i rest ih =>
    constructor
    · rintro ⟨changed, h⟩
      obtain ⟨part, part', hitem, hpart, _⟩ := replace?_cons_eq_some_iff.1 h
      obtain ⟨found, hfollow, hkind⟩ := ih.1 ⟨part', hpart⟩
      exact ⟨found, Option.bind_eq_some_iff.2 ⟨part, hitem, hfollow⟩, hkind⟩
    · rintro ⟨found, h, hkind⟩
      obtain ⟨part, hitem, hfollow⟩ := Option.bind_eq_some_iff.1 h
      obtain ⟨part', hpart⟩ := ih.2 ⟨found, hfollow, hkind⟩
      obtain ⟨changed, hset⟩ := exists_set? hitem (kind_of_replace? hpart).symm
      exact ⟨changed, replace?_cons_eq_some_iff.2 ⟨part, part', hitem, hpart, hset⟩⟩

/-- A piece stays as it is when a part takes its own place. -/
theorem replace?_of_follow? (h : piece.follow? path = some part) :
    piece.replace? part path = some piece := by
  induction path generalizing piece with
  | nil =>
    obtain rfl := Option.some.inj h
    exact if_pos rfl
  | cons i rest ih =>
    obtain ⟨next, hitem, hfollow⟩ := Option.bind_eq_some_iff.1 h
    exact replace?_cons_eq_some_iff.2 ⟨next, next, hitem, ih hfollow, set?_of_item? hitem⟩

/-- A replacement behind a part replaces in that part, and leaves its context as it was. -/
theorem follow?_of_replace?_append (h : piece.replace? new (front ++ rest) = some changed) :
    ∃ part part', piece.follow? front = some part ∧ part.replace? new rest = some part' ∧
      changed.follow? front = some part' ∧
      ∀ context, changed.contextAt context front = piece.contextAt context front := by
  induction front generalizing piece changed with
  | nil => exact ⟨piece, changed, rfl, h, rfl, fun _ => rfl⟩
  | cons i front ih =>
    obtain ⟨next, next', hitem, hnext, hset⟩ := replace?_cons_eq_some_iff.1 h
    obtain ⟨part, part', hfollow, hpart, hfollow', hcontext⟩ := ih hnext
    have hput := putAt_of_set? hset hitem
    refine ⟨part, part', by simp only [follow?, hitem, Option.bind_some, hfollow], hpart,
      by simp only [follow?, hput.item_eq, Option.bind_some, hfollow'], fun context => ?_⟩
    simp only [contextAt, hitem, hput.item_eq, hput.below_eq context (.inl (Int.le_refl i)),
      hcontext]

/-- Of two pieces put at one place the second one counts. -/
theorem replace?_replace? (h : piece.replace? new path = some changed)
    (h' : changed.replace? newer path = some final) : piece.replace? newer path = some final := by
  induction path generalizing piece changed final with
  | nil =>
    obtain ⟨hkind, ⟨⟩⟩ := Option.ite_none_right_eq_some.1 h
    obtain ⟨hkind', ⟨⟩⟩ := Option.ite_none_right_eq_some.1 h'
    exact if_pos (hkind.trans hkind')
  | cons i rest ih =>
    obtain ⟨part, part', hitem, hpart, hset⟩ := replace?_cons_eq_some_iff.1 h
    obtain ⟨_, part'', hitem', hpart', hset'⟩ := replace?_cons_eq_some_iff.1 h'
    obtain rfl := Option.some.inj ((putAt_of_set? hset hitem).item_eq.symm.trans hitem')
    exact replace?_cons_eq_some_iff.2
      ⟨part, part'', hitem, ih hpart hpart', (set?_set? hset).symm.trans hset'⟩

/-- Pieces put at two places that lie apart can be put there in either order. -/
theorem replace?_comm {p q : IndexPath} (hne : i ≠ j)
    (h : piece.replace? new (front ++ i :: p) = some changed)
    (h' : changed.replace? newer (front ++ j :: q) = some final) :
    ∃ changed', piece.replace? newer (front ++ j :: q) = some changed' ∧
      changed'.replace? new (front ++ i :: p) = some final := by
  induction front generalizing piece changed final with
  | nil =>
    obtain ⟨part, part', hitem, hpart, hset⟩ := replace?_cons_eq_some_iff.1 h
    obtain ⟨other, other', hother, hreplace, hset'⟩ := replace?_cons_eq_some_iff.1 h'
    rw [(putAt_of_set? hset hitem).item_eq_of_ne hne] at hother
    obtain ⟨mid, hmid, hfinal⟩ := set?_comm hne hitem hother hset hset'
    refine ⟨mid, replace?_cons_eq_some_iff.2 ⟨other, other', hother, hreplace, hmid⟩,
      replace?_cons_eq_some_iff.2 ⟨part, part', ?_, hpart, hfinal⟩⟩
    rw [(putAt_of_set? hmid hother).item_eq_of_ne hne.symm, hitem]
  | cons k front ih =>
    obtain ⟨part, part', hitem, hpart, hset⟩ := replace?_cons_eq_some_iff.1 h
    obtain ⟨_, part'', hitem', hpart', hset'⟩ := replace?_cons_eq_some_iff.1 h'
    obtain rfl := Option.some.inj ((putAt_of_set? hset hitem).item_eq.symm.trans hitem')
    obtain ⟨mid, hmid, hfinal⟩ := ih hpart hpart'
    obtain ⟨changed', hset''⟩ := exists_set? hitem (kind_of_replace? hmid).symm
    refine ⟨changed', replace?_cons_eq_some_iff.2 ⟨part, mid, hitem, hmid, hset''⟩,
      replace?_cons_eq_some_iff.2 ⟨mid, part'', (putAt_of_set? hset'' hitem).item_eq, hfinal, ?_⟩⟩
    rw [set?_set? hset'', ← set?_set? hset, hset']

end Piece

/-! ## A path from a node -/

namespace Node
open Piece
variable {context : Context} {node : Node} {path : IndexPath} {l : Location}

/-- What is found two indices at a time is what is found one index at a time. -/
theorem follow?_of_locate? (h : node.locate? context path = some l) :
    (Piece.node node).follow? path = some l.target.piece ∧
      (Piece.node node).contextAt context path = l.context := by
  fun_induction Node.locate? context node path with
  | case1 context node =>
    obtain rfl := Option.some.inj h
    exact ⟨rfl, rfl⟩
  | case2 context roll i =>
    obtain ⟨row, hitem, rfl⟩ := Option.map_eq_some_iff.1 h
    simp only [follow?, contextAt, item?, hitem, Option.map_some, Option.bind_some]
    exact ⟨rfl, rfl⟩
  | case3 context roll i =>
    obtain ⟨nodes, hitem, rfl⟩ := Option.map_eq_some_iff.1 h
    simp only [follow?, contextAt, item?, hitem, Option.map_some, Option.bind_some]
    exact ⟨rfl, rfl⟩
  | case4 context roll i j rest row hitem child hchild ih =>
    simp only [follow?, contextAt, item?, hitem, hchild, Option.map_some, Option.bind_some]
    exact ih h
  | case7 context roll i j rest nodes hitem child hchild ih =>
    simp only [follow?, contextAt, item?, hitem, hchild, Option.map_some, Option.bind_some]
    exact ih h
  | case5 => cases h
  | case6 => cases h
  | case8 => cases h
  | case9 => cases h
  | case10 => cases h

theorem follow?_eq_none_of_locate? (h : node.locate? context path = none) :
    (Piece.node node).follow? path = none := by
  fun_induction Node.locate? context node path with
  | case1 => cases h
  | case2 context roll i | case3 context roll i =>
    rw [Option.map_eq_none_iff] at h
    simp only [follow?, item?, h, Option.map_none, Option.bind_none]
  | case4 context roll i j rest row hitem child hchild ih =>
    simp only [follow?, item?, hitem, hchild, Option.map_some, Option.bind_some]
    exact ih h
  | case7 context roll i j rest nodes hitem child hchild ih =>
    simp only [follow?, item?, hitem, hchild, Option.map_some, Option.bind_some]
    exact ih h
  | case5 context roll i j rest row hitem hchild =>
    simp only [follow?, item?, hitem, hchild, Option.map_some, Option.bind_some, Option.map_none,
      Option.bind_none]
  | case6 context roll i j rest hitem =>
    simp only [follow?, item?]
    cases hrow : itemAt? roll.rows i with
    | none => rfl
    | some row =>
      cases row with
      | missing => rfl
      | found row => exact absurd hrow (hitem row)
  | case8 context roll i j rest nodes hitem hchild =>
    simp only [follow?, item?, hitem, hchild, Option.map_some, Option.bind_some, Option.map_none,
      Option.bind_none]
  | case9 context roll i j rest hitem =>
    simp only [follow?, item?, hitem, Option.map_none, Option.bind_none]
  | case10 => rfl

/-- What is found one index at a time is found two indices at a time. -/
theorem exists_locate?_of_follow? {part : Piece} (context : Context)
    (h : (Piece.node node).follow? path = some part) :
    ∃ l, node.locate? context path = some l ∧ l.target.piece = part := by
  cases hl : node.locate? context path with
  | none =>
    rw [follow?_eq_none_of_locate? hl] at h
    cases h
  | some l =>
    rw [(follow?_of_locate? hl).1] at h
    exact ⟨l, rfl, Option.some.inj h⟩

/-- What is replaced two indices at a time is what is replaced one index at a time. -/
theorem replace?_eq (node : Node) (new : Piece) (path : IndexPath) :
    (Piece.node node).replace? new path = (node.replace? new path).map .node := by
  fun_induction Node.replace? new node path with
  | case1 old node hnew =>
    subst hnew
    rfl
  | case2 node hnew =>
    cases new with
    | node new => exact absurd rfl (hnew new)
    | row | nodes => rfl
  | case3 roll i row old hitem hnew | case5 roll i nodes old hitem hnew =>
    subst hnew
    simp only [Piece.replace?, item?, hitem, Option.map_some, Option.bind_some]
    rfl
  | case4 roll i hnew =>
    simp only [Piece.replace?, item?]
    cases hitem : itemAt? roll.rows i with
    | none => rfl
    | some old =>
      cases new with
      | row new => exact absurd hitem (hnew new old rfl)
      | node | nodes => rfl
  | case6 roll i hnew =>
    simp only [Piece.replace?, item?]
    cases hitem : itemAt? roll.repeats i with
    | none => rfl
    | some old =>
      cases new with
      | nodes new => exact absurd hitem (hnew new old rfl)
      | node | row => rfl
  | case7 roll i j rest row hitem child hchild ih
  | case10 roll i j rest nodes hitem child hchild ih =>
    simp only [Piece.replace?, item?, hitem, hchild, Option.map_some, Option.bind_some, ih]
    cases child.replace? new rest <;> rfl
  | case8 roll i j rest row hitem hchild | case11 roll i j rest nodes hitem hchild =>
    simp only [Piece.replace?, item?, hitem, hchild, Option.map_some, Option.bind_some,
      Option.map_none, Option.bind_none]
  | case9 roll i j rest hitem =>
    simp only [Piece.replace?, item?]
    cases hrow : itemAt? roll.rows i with
    | none => rfl
    | some row =>
      cases row with
      | missing => rfl
      | found row => exact absurd hrow (hitem row)
  | case12 roll i j rest hitem =>
    simp only [Piece.replace?, item?, hitem, Option.map_none, Option.bind_none]
  | case13 => rfl

theorem replace?_eq_some_iff {replaced : Node} {new : Piece} :
    node.replace? new path = some replaced ↔
      (Piece.node node).replace? new path = some (.node replaced) := by
  rw [replace?_eq]
  cases node.replace? new path <;> simp

end Node
end RandomTables
