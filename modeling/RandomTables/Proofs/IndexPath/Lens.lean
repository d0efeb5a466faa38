import RandomTables.Proofs.IndexPath.Step

/-!
# What is found and what is put

Following a path finds a part of an outcome, and a piece of the same kind can be put in its place.
The two fit together: a piece can be put wherever something is found and nowhere else, it is found
there afterwards, putting back what was found changes nothing, and of two pieces put at one place
the second one counts.
-/
namespace RandomTables

theorem Target.kindName_eq {target target' : Target}
    (h : target'.piece.kind = target.piece.kind) : target'.kindName = target.kindName := by
  cases target <;> cases target' <;> first | rfl | cases h

namespace Node
variable {context context' : Context} {node node' replaced parent : Node} {path : IndexPath}
  {l l' : Location} {new : Piece}

/-- What holds the target of a path is found in the same context by the path without its last index,
and that index is where the target stands. -/
theorem parent_of_locate? (h : node.locate? context path = some l)
    (hparent : l.target.parent? = some parent) :
    ∃ front i, path = front ++ [i] ∧ l.target.index? = some i.toNat ∧
      node.locate? context front = some ⟨l.context, .node parent⟩ := by
  fun_induction Node.locate? context node path with
  | case1 context node =>
    obtain rfl := Option.some.inj h
    cases hparent
  | case2 context roll i | case3 context roll i =>
    obtain ⟨_, _, rfl⟩ := Option.map_eq_some_iff.1 h
    obtain rfl := Option.some.inj hparent
    exact ⟨[], i, rfl, rfl, rfl⟩
  | case4 context roll i j rest row hitem child hchild ih =>
    obtain ⟨front, last, rfl, hindex, hfront⟩ := ih h
    exact ⟨i :: j :: front, last, rfl, hindex, by simp only [locate?, hitem, hchild, hfront]⟩
  | case7 context roll i j rest nodes hitem child hchild ih =>
    obtain ⟨front, last, rfl, hindex, hfront⟩ := ih h
    exact ⟨i :: j :: front, last, rfl, hindex, by simp only [locate?, hitem, hchild, hfront]⟩
  | case5 => cases h
  | case6 => cases h
  | case8 => cases h
  | case9 => cases h
  | case10 => cases h

/-- A row or repeat stands at the last index of the path that leads to it. -/
theorem index?_of_locate? (h : node.locate? context path = some l) :
    l.target.index? =
      if l.target.piece.kind = .node then none else path.getLast?.map Int.toNat := by
  obtain ⟨_, target⟩ := l
  cases target with
  | node => rfl
  | row | nodes =>
    obtain ⟨front, i, rfl, hindex, _⟩ := parent_of_locate? h rfl
    rw [List.getLast?_concat]
    exact hindex

/-- A piece can be put where a part of its kind is found, and it is found there afterwards, in the
same context. -/
theorem exists_replace?_of_locate? (h : node.locate? context path = some l)
    (hkind : l.target.piece.kind = new.kind) :
    ∃ replaced l', node.replace? new path = some replaced ∧
      replaced.locate? context path = some l' ∧ l'.target.piece = new ∧ l'.context = l.context := by
  obtain ⟨hfollow, hcontext⟩ := follow?_of_locate? h
  obtain ⟨changed, hchanged⟩ := Piece.exists_replace?_iff.2 ⟨_, hfollow, hkind⟩
  obtain ⟨replaced, hreplace, rfl⟩ :=
    Option.map_eq_some_iff.1 ((replace?_eq ..).symm.trans hchanged)
  obtain ⟨_, part, _, hpart, hfollow', hcontexts⟩ :=
    Piece.follow?_of_replace?_append ((List.append_nil path).symm ▸ hchanged)
  obtain ⟨_, ⟨⟩⟩ := Option.ite_none_right_eq_some.1 hpart
  obtain ⟨l', hl', hpiece⟩ := exists_locate?_of_follow? context hfollow'
  exact ⟨replaced, l', hreplace, hl', hpiece,
    (follow?_of_locate? hl').2.symm.trans ((hcontexts context).trans hcontext)⟩

/-- Nothing can be put where nothing is found. -/
theorem replace?_eq_none_of_locate? (h : node.locate? context path = none) (new : Piece) :
    node.replace? new path = none := by
  rw [Option.eq_none_iff_forall_ne_some]
  intro replaced hreplace
  obtain ⟨part, hfollow, _⟩ := Piece.exists_replace?_iff.1 ⟨_, replace?_eq_some_iff.1 hreplace⟩
  rw [follow?_eq_none_of_locate? h] at hfollow
  cases hfollow

/-- An outcome stays as it is when a part of it takes its own place. -/
theorem replace?_of_locate? (h : node.locate? context path = some l) :
    node.replace? l.target.piece path = some node :=
  replace?_eq_some_iff.2 (Piece.replace?_of_follow? (follow?_of_locate? h).1)

/-- Finding and putting fit together. A piece of the kind that the path leads to can be put exactly
if the path leads somewhere. It is then found as a target of the same kind at the same index.
Putting back what was found changes nothing, and a second piece put at the same place makes the
first one forgotten. -/
theorem replace?_lens (context : Context) (node : Node) (path : IndexPath) (new : Piece)
    (hnew : ∀ l, node.locate? context path = some l → l.target.piece.kind = new.kind) :
    (node.replace? new path = none ↔ node.locate? context path = none) ∧
    ∀ l, node.locate? context path = some l →
      ∃ replaced l', node.replace? new path = some replaced ∧
        replaced.locate? context path = some l' ∧ l'.target.piece = new ∧
        l'.target.kindName = l.target.kindName ∧ l'.target.index? = l.target.index? ∧
        node.replace? l.target.piece path = some node ∧
        ∀ newer : Piece, l.target.piece.kind = newer.kind →
          ∃ final, replaced.replace? newer path = some final ∧
            node.replace? newer path = some final := by
  constructor
  · refine ⟨fun hnone => ?_, fun hnone => replace?_eq_none_of_locate? hnone new⟩
    cases hl : node.locate? context path with
    | none => rfl
    | some l =>
      obtain ⟨replaced, _, hreplace, _⟩ := exists_replace?_of_locate? hl (hnew l hl)
      rw [hreplace] at hnone
      cases hnone
  · intro l hl
    obtain ⟨replaced, l', hreplace, hl', hpiece, _⟩ := exists_replace?_of_locate? hl (hnew l hl)
    have hkind : l'.target.piece.kind = l.target.piece.kind := by rw [hpiece, hnew l hl]
    refine ⟨replaced, l', hreplace, hl', hpiece, Target.kindName_eq hkind, ?_,
      replace?_of_locate? hl, fun newer hnewer => ?_⟩
    · rw [index?_of_locate? hl, index?_of_locate? hl', hkind]
    · obtain ⟨final, _, hfinal, _⟩ := exists_replace?_of_locate? hl' (hkind.trans hnewer)
      exact ⟨final, hfinal, replace?_eq_some_iff.2 (Piece.replace?_replace?
        (replace?_eq_some_iff.1 hreplace) (replace?_eq_some_iff.1 hfinal))⟩

/-- A chest has a row that was not found and one with a lock and a bundle of a gem and a ring. -/
def chest : Node :=
  .table ⟨.toPath "/chest", default,
    [.missing 3,
      .found ⟨4, .single 4, [],
        [.leaf (.toPath "/lock") "/lock",
          .bundle ⟨.toPath "/pair", default,
            [[.leaf (.toPath "/gem") "/gem", .leaf (.toPath "/ring") "/ring"]]⟩],
        .empty, .empty⟩],
    [], [], []⟩

/-- A coin takes the place of the gem. -/
theorem chest_lens :
    ∃ l replaced, chest.locate? .root [1, 1, 0, 0] = some l ∧
      chest.replace? (.node (.leaf (.toPath "/coin") "/coin")) [1, 1, 0, 0] = some replaced ∧
      replaced.replace? l.target.piece [1, 1, 0, 0] = some chest := by
  obtain ⟨_, hlaws⟩ := replace?_lens .root chest [1, 1, 0, 0]
    (.node (.leaf (.toPath "/coin") "/coin")) (by rintro _ ⟨⟩; rfl)
  obtain ⟨replaced, _, hreplace, _, _, _, _, hback, hagain⟩ := hlaws _ rfl
  obtain ⟨final, hfinal, hfinal'⟩ := hagain (.node (.leaf (.toPath "/gem") "/gem")) rfl
  obtain rfl := Option.some.inj (hback.symm.trans hfinal')
  exact ⟨_, replaced, rfl, hreplace, hfinal⟩

end Node
end RandomTables
