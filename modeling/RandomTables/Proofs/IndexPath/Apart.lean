import RandomTables.Proofs.IndexPath.Lens

/-!
# Places that lie apart

Two paths lie apart if they differ at an index that both of them have. Replacing what one of them
leads to leaves what the other one leads to as it is, so that two such replacements can be made in
either order. The context stays as well, with one exception: what a node exports is seen by the
nodes behind it in the same row or repeat, and by everything below those.
-/
namespace RandomTables
namespace Piece
variable {piece changed part new : Piece} {i j : Int} {path front p q : IndexPath}

/-- Rows and repeats hold nodes, and nodes hold rows or repeats. -/
theorem kind_of_item? (h : piece.item? i = some part) : part.kind = .node ↔ piece.kind ≠ .node := by
  revert h
  fun_cases item? piece i with
  | case1 | case2 | case3 | case4 =>
    intro h
    obtain ⟨_, _, rfl⟩ := Option.map_eq_some_iff.1 h
    simp [kind]
  | case5 =>
    intro h
    cases h

/-- From a node a path of even length leads to a node, and one of odd length to a row or repeat. -/
theorem kind_of_follow? (h : piece.follow? path = some part) :
    part.kind = .node ↔ (piece.kind = .node ↔ path.length % 2 = 0) := by
  induction path generalizing piece with
  | nil =>
    obtain rfl := Option.some.inj h
    simp
  | cons i rest ih =>
    obtain ⟨next, hitem, hfollow⟩ := Option.bind_eq_some_iff.1 h
    have hparity : (rest.length + 1) % 2 = 0 ↔ ¬ rest.length % 2 = 0 := by omega
    rw [ih hfollow, kind_of_item? hitem, List.length_cons, hparity]
    grind

/-- A replacement leaves what lies apart from it, and the context of that unless it lies behind it
in the same row or repeat. -/
theorem follow?_apart (hne : i ≠ j) (h : piece.replace? new (front ++ i :: p) = some changed) :
    changed.follow? (front ++ j :: q) = piece.follow? (front ++ j :: q) ∧
      ∀ context, (j < i ∨ (piece.kind = .node ↔ front.length % 2 = 0)) →
        changed.contextAt context (front ++ j :: q) =
          piece.contextAt context (front ++ j :: q) := by
  obtain ⟨part, part', hfollow, hpart, hfollow', hcontext⟩ := follow?_of_replace?_append h
  obtain ⟨_, _, hitem, _, hset⟩ := replace?_cons_eq_some_iff.1 hpart
  have hput := putAt_of_set? hset hitem
  constructor
  · simp only [follow?_append, hfollow, hfollow', Option.bind_some, follow?,
      hput.item_eq_of_ne hne]
  · intro context hsteady
    have hbelow : part'.below (piece.contextAt context front) j =
        part.below (piece.contextAt context front) j :=
      hput.below_eq _ (hsteady.imp Int.le_of_lt (kind_of_follow? hfollow).2)
    simp only [contextAt_append context hfollow, contextAt_append context hfollow', hcontext,
      contextAt, hput.item_eq_of_ne hne, hbelow]

end Piece

/-- One location holds the same part as another one, at the same index of its row, table or
bundle. -/
structure Location.SamePart (l l' : Location) : Prop where
  piece_eq : l'.target.piece = l.target.piece
  kindName_eq : l'.target.kindName = l.target.kindName
  index?_eq : l'.target.index? = l.target.index?

namespace Node
variable {context : Context} {node replaced : Node} {new newer : Piece} {i j : Int}
  {front p q : IndexPath} {l : Location}

theorem locate?_apart (context : Context) (hne : i ≠ j)
    (h : node.replace? new (front ++ i :: p) = some replaced) (q : IndexPath) :
    Option.Rel
      (fun l l' => l.SamePart l' ∧
        (¬ (front.length % 2 = 1 ∧ i < j) → l'.context = l.context))
      (node.locate? context (front ++ j :: q)) (replaced.locate? context (front ++ j :: q)) := by
  obtain ⟨hfollow, hcontext⟩ := Piece.follow?_apart hne (replace?_eq_some_iff.1 h) (q := q)
  cases hl : node.locate? context (front ++ j :: q) with
  | none =>
    cases hl' : replaced.locate? context (front ++ j :: q) with
    | none => exact .none
    | some l' =>
      rw [(follow?_of_locate? hl').1, follow?_eq_none_of_locate? hl] at hfollow
      cases hfollow
  | some l =>
    rw [(follow?_of_locate? hl).1] at hfollow
    obtain ⟨l', hl', hpiece⟩ := exists_locate?_of_follow? context hfollow
    rw [hl']
    refine .some ⟨⟨hpiece, Target.kindName_eq (by rw [hpiece]), ?_⟩, fun hsteady => ?_⟩
    · rw [index?_of_locate? hl, index?_of_locate? hl', hpiece]
    · rw [← (follow?_of_locate? hl').2, ← (follow?_of_locate? hl).2]
      refine hcontext context ?_
      by_cases heven : front.length % 2 = 0
      · exact .inr ⟨fun _ => heven, fun _ => rfl⟩
      · exact .inl (by omega)

/-- Pieces put at two places that lie apart can be put there in either order. -/
theorem replace?_bind_comm (node : Node) (new newer : Piece) (hne : i ≠ j) (front p q : IndexPath) :
    (node.replace? new (front ++ i :: p)).bind (·.replace? newer (front ++ j :: q)) =
      (node.replace? newer (front ++ j :: q)).bind (·.replace? new (front ++ i :: p)) := by
  -- Whatever comes of one order comes of the other one.
  have hcomm : ∀ {i j : Int} {p q : IndexPath} {new newer : Piece} {final : Node}, i ≠ j →
      (node.replace? new (front ++ i :: p)).bind (·.replace? newer (front ++ j :: q)) =
        some final →
      (node.replace? newer (front ++ j :: q)).bind (·.replace? new (front ++ i :: p)) =
        some final := by
    intro i j p q new newer final hne h
    obtain ⟨mid, hmid, hfinal⟩ := Option.bind_eq_some_iff.1 h
    obtain ⟨changed, hchanged, hback⟩ := Piece.replace?_comm hne (replace?_eq_some_iff.1 hmid)
      (replace?_eq_some_iff.1 hfinal)
    obtain ⟨mid', hmid', rfl⟩ := Option.map_eq_some_iff.1 ((replace?_eq ..).symm.trans hchanged)
    exact Option.bind_eq_some_iff.2 ⟨mid', hmid', replace?_eq_some_iff.2 hback⟩
  exact Option.ext fun final => ⟨hcomm hne, hcomm hne.symm⟩

/-- Replacing what a path leads to touches nothing else. Of two paths that differ at an index, the
second one leads to the same part as before, or to nothing as before; and in the same context,
unless at that index it selects a later node of the same row or repeat than the first one. The two
replacements can be made in either order. -/
theorem replace?_apart (context : Context) (node : Node) (front p q : IndexPath) (i j : Int)
    (hne : i ≠ j) (l : Location) (hl : node.locate? context (front ++ i :: p) = some l)
    (new : Piece) (hnew : l.target.piece.kind = new.kind) :
    ∃ replaced, node.replace? new (front ++ i :: p) = some replaced ∧
      Option.Rel
        (fun l l' => l.SamePart l' ∧
          (¬ (front.length % 2 = 1 ∧ i < j) → l'.context = l.context))
        (node.locate? context (front ++ j :: q)) (replaced.locate? context (front ++ j :: q)) ∧
      ∀ newer : Piece,
        (node.replace? new (front ++ i :: p)).bind (·.replace? newer (front ++ j :: q)) =
          (node.replace? newer (front ++ j :: q)).bind (·.replace? new (front ++ i :: p)) := by
  obtain ⟨replaced, _, hreplace, _⟩ := exists_replace?_of_locate? hl hnew
  exact ⟨replaced, hreplace, locate?_apart context hne hreplace q,
    fun newer => replace?_bind_comm node new newer hne front p q⟩

/-- A coin takes the place of the gem. The lock, which stands before the bundle that holds the gem,
is found as before. -/
theorem chest_apart :
    ∃ l l' replaced, chest.locate? .root [1, 0] = some l ∧
      chest.replace? (.node (.leaf (.toPath "/coin") "/coin")) [1, 1, 0, 0] = some replaced ∧
      replaced.locate? .root [1, 0] = some l' ∧ l'.target.piece = l.target.piece ∧
      l'.context = l.context := by
  obtain ⟨replaced, hreplace, hrel, _⟩ := replace?_apart .root chest [1] [0, 0] [] 1 0 (by decide) _
    rfl (.node (.leaf (.toPath "/coin") "/coin")) rfl
  obtain ⟨l, hl⟩ : ∃ l, chest.locate? .root [1, 0] = some l := ⟨_, rfl⟩
  simp only [List.cons_append, List.nil_append, hl] at hrel
  cases hl' : replaced.locate? .root [1, 0] with
  | none =>
    rw [hl'] at hrel
    cases hrel
  | some l' =>
    rw [hl'] at hrel
    obtain ⟨hsame, hcontext⟩ := Option.rel_some_some.1 hrel
    exact ⟨l, l', replaced, hl, hreplace, hl', hsame.piece_eq, hcontext (by decide)⟩

end Node
end RandomTables
