import Mathlib.Data.List.InsertIdx
import RandomTables.Proofs.IndexPath.Apart
import RandomTables.Proofs.Roller.InGroups
import RandomTables.Proofs.Roller.Reachable

/-!
# Rolling two parts again

Two parts of an outcome that lie apart at a row or repeat can be rolled again in either order. The
part that is rolled second stands in an outcome that has changed elsewhere. Its own context is the
same as before, and so is what it is rolled from: the reference, the definition and the inputs of
the table or bundle that holds it, and the totals of the other rows, as far as they are to be
avoided. The last is why two rows of one table with unique totals are left out.
-/
namespace RandomTables
open Roll

/-- With a part below a table replaced, the table is rolled from the same as before. Its totals
change only if one of its rows is replaced as a whole. -/
theorem TableRoll.same_of_replace? {parent parent' : TableRoll} {new : Piece} {i : Int}
    {rest : IndexPath}
    (h : (Piece.node (.table parent)).replace? new (i :: rest) = some (.node (.table parent'))) :
    parent'.ref = parent.ref ∧ parent'.table = parent.table ∧ parent'.inputs = parent.inputs ∧
      (rest ≠ [] → parent'.rows.map RowRoll.total = parent.rows.map RowRoll.total) := by
  obtain ⟨part, part', hitem, hpart, hset⟩ := Piece.replace?_cons_eq_some_iff.1 h
  obtain ⟨row, hrow, rfl⟩ := Option.map_eq_some_iff.1 hitem
  cases part' with
  | row new =>
    obtain ⟨⟩ := hset
    refine ⟨rfl, rfl, rfl, fun hrest => ?_⟩
    obtain ⟨j, rest, rfl⟩ := List.exists_cons_of_ne_nil hrest
    obtain ⟨_, part, _, _, hset⟩ := Piece.replace?_cons_eq_some_iff.1 hpart
    have htotal : new.total = row.total := by
      cases row with
      | missing => cases hset
      | found content =>
        cases part with
        | node => obtain ⟨⟩ := hset; rfl
        | row | nodes => cases hset
    obtain ⟨index, rfl, hindex⟩ := itemAt?_eq_some_iff.1 hrow
    exact map_set_of_getElem? hindex htotal
  | node | nodes => cases hset

theorem BundleRoll.same_of_replace? {parent parent' : BundleRoll} {new : Piece} {i : Int}
    {rest : IndexPath}
    (h : (Piece.node (.bundle parent)).replace? new (i :: rest) = some (.node (.bundle parent'))) :
    parent'.bundle = parent.bundle := by
  obtain ⟨part, part', hitem, hpart, hset⟩ := Piece.replace?_cons_eq_some_iff.1 h
  cases part' with
  | nodes new =>
    obtain ⟨⟩ := hset
    rfl
  | node | row => cases hset

namespace Roller
variable {r : Roller} {s s' : RollState} {context : Context} {root replaced : Node} {new : Piece}
  {l l' : Location} {i j : Int} {front p q : IndexPath}

/-- What is rolled for a target is a piece of its kind. -/
theorem kind_of_rerollTarget {target : Target} {roll : Roll Piece}
    (hroll : r.rerollTarget context target = .ok roll) (h : roll.runFrom s = (.ok new, s')) :
    target.piece.kind = new.kind := by
  cases target with
  | row parent index row | nodes parent index nodes | node node =>
    simp only [rerollTarget] at hroll
    split at hroll
    · obtain rfl := Except.ok.inj hroll
      obtain ⟨_, _, rfl⟩ := runFrom_map_eq_ok_iff.1 h
      rfl
    · cases hroll

/-- The totals to avoid are the same in a table with the same totals, or with any totals if they
need not be unique. -/
theorem takenTotals_eq {roll roll' : TableRoll} (href : roll'.ref = roll.ref)
    (htotals : roll.ref.instructions.unique →
      roll'.rows.map RowRoll.total = roll.rows.map RowRoll.total) (index : Nat) :
    takenTotals roll' index = takenTotals roll index := by
  unfold takenTotals
  rw [href]
  cases hunique : roll.ref.instructions.unique with
  | false => rfl
  | true =>
    simp only [if_true, ← List.eraseIdx_map]
    rw [htotals hunique]

/-- What holds a target is the same after something apart was replaced, or is what holds the other
part as well. -/
theorem parent_apart {parent parent' : Node} (hne : i ≠ j)
    (hreplace : root.replace? new (front ++ i :: p) = some replaced)
    (hl : root.locate? context (front ++ j :: q) = some l)
    (hl' : replaced.locate? context (front ++ j :: q) = some l')
    (hparent : l.target.parent? = some parent) (hparent' : l'.target.parent? = some parent') :
    parent' = parent ∨ q = [] ∧ root.locate? context front = some ⟨l.context, .node parent⟩ ∧
      (Piece.node parent).replace? new (i :: p) = some (.node parent') := by
  obtain ⟨before, last, hpath, _, hfound⟩ := Node.parent_of_locate? hl hparent
  obtain ⟨before', last', hpath', _, hfound'⟩ := Node.parent_of_locate? hl' hparent'
  obtain rfl : before' = before := (List.append_inj' (hpath'.symm.trans hpath) rfl).1
  rcases List.eq_nil_or_concat q with rfl | ⟨rest, final, rfl⟩
  · obtain rfl : front = before' := (List.append_inj' hpath rfl).1
    obtain ⟨part, part', hfollow, hpart, hfollow', _⟩ :=
      Piece.follow?_of_replace?_append (Node.replace?_eq_some_iff.1 hreplace)
    rw [(Node.follow?_of_locate? hfound).1] at hfollow
    rw [(Node.follow?_of_locate? hfound').1] at hfollow'
    obtain ⟨⟩ := hfollow
    obtain ⟨⟩ := hfollow'
    exact .inr ⟨rfl, hfound, hpart⟩
  · rw [List.concat_eq_append, ← List.cons_append, ← List.append_assoc] at hpath
    obtain rfl : front ++ j :: rest = before' := (List.append_inj' hpath rfl).1
    have hrel := Node.locate?_apart context hne hreplace rest
    rw [hfound, hfound'] at hrel
    obtain ⟨hsame, _⟩ := Option.rel_some_some.1 hrel
    exact .inl (Piece.node.inj hsame.piece_eq)

/-- A target is found again after something apart was replaced, and rolling it again is the same
computation as before. -/
theorem rerollTarget_apart (hne : i ≠ j) (heven : front.length % 2 = 0)
    (hreplace : root.replace? new (front ++ i :: p) = some replaced)
    (hunique : p = [] → q = [] → ∀ c parent,
      root.locate? context front = some ⟨c, .node (.table parent)⟩ →
        parent.ref.instructions.unique = false)
    (hl : root.locate? context (front ++ j :: q) = some l) :
    ∃ l', replaced.locate? context (front ++ j :: q) = some l' ∧
      l'.target.piece = l.target.piece ∧
      r.rerollTarget l'.context l'.target = r.rerollTarget l.context l.target := by
  have hrel := Node.locate?_apart context hne hreplace q
  rw [hl] at hrel
  cases hl' : replaced.locate? context (front ++ j :: q) with
  | none =>
    rw [hl'] at hrel
    cases hrel
  | some l' =>
    rw [hl'] at hrel
    obtain ⟨⟨hpiece, _, hindex⟩, hcontext⟩ := Option.rel_some_some.1 hrel
    refine ⟨l', rfl, hpiece, ?_⟩
    have hparents : ∀ parent parent', l.target.parent? = some parent →
        l'.target.parent? = some parent' → parent' = parent ∨ _ :=
      fun _ _ => parent_apart hne hreplace hl hl'
    rw [hcontext (by omega)]
    obtain ⟨c, target⟩ := l
    obtain ⟨c', target'⟩ := l'
    cases target with
    | node old =>
      cases target' with
      | node =>
        obtain rfl := Piece.node.inj hpiece
        rfl
      | row | nodes => cases hpiece
    | row parent index row =>
      cases target' with
      | row parent' =>
        obtain rfl := Piece.row.inj hpiece
        obtain rfl := Option.some.inj hindex
        rcases hparents _ _ rfl rfl with hsame | ⟨rfl, hfound, hparent⟩
        · obtain ⟨⟩ := hsame
          rfl
        · obtain ⟨href, htable, hinputs, htotals⟩ := TableRoll.same_of_replace? hparent
          have htaken := takenTotals_eq href fun hown => htotals fun hrow => by
            rw [hunique hrow rfl _ _ hfound] at hown
            cases hown
          simp only [rerollTarget, rerollRow, href, htable, hinputs, htaken]
      | node | nodes => cases hpiece
    | nodes parent index nodes =>
      cases target' with
      | nodes parent' =>
        rcases hparents _ _ rfl rfl with hsame | ⟨_, _, hparent⟩
        · obtain ⟨⟩ := hsame
          rfl
        · simp only [rerollTarget, BundleRoll.same_of_replace? hparent]
      | node | row => cases hpiece

/-- Rolling the part again that a path leads to, from a seed, comes to this outcome and ends with
this seed, whatever the time is and whatever the log holds. -/
def Rerolls (r : Roller) (path : IndexPath) (root : Node) (context : Context) (seed : Int)
    (node : Node) (next : Int) : Prop :=
  ∃ roll, r.reroll path root context = .ok roll ∧
    ∀ now log, ∃ t, roll.runFrom (.start now seed log) = (.ok node, t) ∧ t.seed = next

/-- The time and the log of one success do not matter. -/
theorem rerolls_of_runFrom {path : IndexPath} {roll : Roll Node} {now : Timestamp} {seed : Int}
    {log : RunLog} {node : Node} (hroll : r.reroll path root context = .ok roll)
    (h : roll.runFrom (.start now seed log) = (.ok node, s')) :
    r.Rerolls path root context seed node s'.seed := by
  obtain ⟨l, pieceRoll, new, t, hl, hpiece, hnew, rfl, rfl⟩ :=
    reroll_succeeds_iff.1 ⟨roll, hroll, h⟩
  refine ⟨roll, hroll, fun now log => ?_⟩
  obtain ⟨u, hu, hseed⟩ := rerollTarget_seeded hpiece _ _ (.start now seed log) _ hnew rfl
  obtain ⟨roll', hroll', h'⟩ :=
    reroll_succeeds_iff.2 ⟨l, pieceRoll, new, u, hl, hpiece, hu, rfl, rfl⟩
  obtain rfl := Except.ok.inj (hroll.symm.trans hroll')
  exact ⟨_, h', hseed⟩

/-- What a part that is rolled again comes to is put in its place. -/
theorem exists_replace?_of_reroll {path : IndexPath} {roll : Roll Node} {node : Node}
    (hroll : r.reroll path root context = .ok roll) (h : roll.runFrom s = (.ok node, s')) :
    ∃ l pieceRoll new t, root.locate? context path = some l ∧
      r.rerollTarget l.context l.target = .ok pieceRoll ∧ pieceRoll.runFrom s = (.ok new, t) ∧
      t.seed = s'.seed ∧ l.target.piece.kind = new.kind ∧ root.replace? new path = some node := by
  obtain ⟨l, pieceRoll, new, t, hl, hpiece, hnew, rfl, rfl⟩ :=
    reroll_succeeds_iff.1 ⟨roll, hroll, h⟩
  have hkind := kind_of_rerollTarget hpiece hnew
  obtain ⟨node, _, hreplace, _⟩ := Node.exists_replace?_of_locate? hl hkind
  exact ⟨l, pieceRoll, new, t, hl, hpiece, hnew, rfl, hkind, by rw [hreplace, Option.getD_some]⟩

/-- A part that can be rolled again can be rolled again after something apart was replaced, with the
same piece in its place. -/
theorem rerolls_apart {roll : Roll Node} {now : Timestamp} {seed : Int} {log : RunLog} {node : Node}
    (hne : i ≠ j) (heven : front.length % 2 = 0)
    (hreplace : root.replace? new (front ++ i :: p) = some replaced)
    (hunique : p = [] → q = [] → ∀ c parent,
      root.locate? context front = some ⟨c, .node (.table parent)⟩ →
        parent.ref.instructions.unique = false)
    (hroll : r.reroll (front ++ j :: q) root context = .ok roll)
    (h : roll.runFrom (.start now seed log) = (.ok node, s')) :
    ∃ newer final, root.replace? newer (front ++ j :: q) = some node ∧
      replaced.replace? newer (front ++ j :: q) = some final ∧
      r.Rerolls (front ++ j :: q) replaced context seed final s'.seed := by
  obtain ⟨l, pieceRoll, newer, t, hl, hpiece, hnewer, hseed, hkind, hnode⟩ :=
    exists_replace?_of_reroll hroll h
  obtain ⟨l', hl', hsame, htarget⟩ := rerollTarget_apart (r := r) hne heven hreplace hunique hl
  obtain ⟨final, _, hfinal, _⟩ :=
    Node.exists_replace?_of_locate? hl' ((congrArg Piece.kind hsame).trans hkind)
  obtain ⟨roll', hroll', h'⟩ := reroll_succeeds_iff.2
    ⟨l', pieceRoll, newer, t, hl', htarget.trans hpiece, hnewer, rfl, rfl⟩
  rw [hfinal, Option.getD_some] at h'
  have hrerolls := rerolls_of_runFrom hroll' h'
  rw [← hseed]
  exact ⟨newer, final, hnode, hfinal, hrerolls⟩

/-- Two parts that lie apart at a row or repeat can be rolled again in either order, each from its
own seed and with its own source of draws. Both orders come to the same outcome, and rolling each of
the parts ends with the same seed as if it had been the first. Rows of one table with unique totals
are left out, since each of them avoids the total of the other one. -/
theorem reroll_comm (r r' : Roller) (root : Node) (context : Context) (front p q : IndexPath)
    (i j : Int) (hne : i ≠ j) (heven : front.length % 2 = 0)
    (hunique : p = [] → q = [] → ∀ c parent,
      root.locate? context front = some ⟨c, .node (.table parent)⟩ →
        parent.ref.instructions.unique = false)
    (now now' : Timestamp) (seed seed' : Int) (log log' : RunLog) (roll roll' : Roll Node)
    (node node' : Node) (t t' : RollState)
    (hroll : r.reroll (front ++ i :: p) root context = .ok roll)
    (h : roll.runFrom (.start now seed log) = (.ok node, t))
    (hroll' : r'.reroll (front ++ j :: q) root context = .ok roll')
    (h' : roll'.runFrom (.start now' seed' log') = (.ok node', t')) :
    ∃ final, r'.Rerolls (front ++ j :: q) node context seed' final t'.seed ∧
      r.Rerolls (front ++ i :: p) node' context seed final t.seed := by
  obtain ⟨_, _, _, _, _, _, _, _, _, hnode⟩ := exists_replace?_of_reroll hroll h
  obtain ⟨_, _, _, _, _, _, _, _, _, hnode'⟩ := exists_replace?_of_reroll hroll' h'
  obtain ⟨newer, final, hfirst', hthen', hrerolls'⟩ :=
    rerolls_apart hne heven hnode hunique hroll' h'
  obtain ⟨new, final', hfirst, hthen, hrerolls⟩ :=
    rerolls_apart hne.symm heven hnode' (fun hq hp => hunique hp hq) hroll h
  have hcomm := Node.replace?_bind_comm root new newer hne front p q
  rw [hfirst, hfirst', Option.bind_some, Option.bind_some, hthen', hthen] at hcomm
  obtain rfl := Option.some.inj hcomm
  exact ⟨final, hrerolls', hrerolls⟩

/-- A hoard with two rows, the first of which refers to a gem that has not been rolled. -/
def unrolledGem : Node :=
  .table ⟨.hoard, ⟨"/hoard", "Hoard", .dice 1 4 false, [], .empty, none⟩,
    [.found ⟨4, .single 4, [], [.leaf (.toPath "/gem") "/gem"], .empty, .empty⟩, .missing 5],
    [], [], []⟩

/-- A part that is seen to be rolled again has an outcome. -/
theorem exists_of_reroll_any (r : Roller) (path : IndexPath) (root : Node) (context : Context)
    (s : RollState)
    (h : (r.reroll path root context).toOption.any fun roll =>
      (roll.runFrom s).1.toOption.any fun _ => true) :
    ∃ roll node t, r.reroll path root context = .ok roll ∧ roll.runFrom s = (.ok node, t) := by
  cases hroll : r.reroll path root context with
  | error fault =>
    rw [hroll] at h
    cases h
  | ok roll =>
    rw [hroll] at h
    obtain ⟨node, t, hnode, _⟩ := exists_ok_of_any h
    exact ⟨roll, node, t, rfl, hnode⟩

/-- The gem in the first row and the second row of the hoard are rolled again in either order. -/
theorem unrolledGem_reroll_comm :
    ∃ roll roll' node node' t t' final,
      (Roller.mk .hoard SplitMix.source 3).reroll [0, 0] unrolledGem .root = .ok roll ∧
      roll.runFrom (.start default 7 (.empty default)) = (.ok node, t) ∧
      (Roller.mk .hoard SplitMix.source 3).reroll [1] unrolledGem .root = .ok roll' ∧
      roll'.runFrom (.start default 8 (.empty default)) = (.ok node', t') ∧
      (Roller.mk .hoard SplitMix.source 3).Rerolls [1] node .root 8 final t'.seed ∧
      (Roller.mk .hoard SplitMix.source 3).Rerolls [0, 0] node' .root 7 final t.seed := by
  obtain ⟨roll, node, t, hroll, h⟩ := exists_of_reroll_any
    ⟨.hoard, SplitMix.source, 3⟩ [0, 0] unrolledGem .root (.start default 7 (.empty default))
    (by decide +kernel)
  obtain ⟨roll', node', t', hroll', h'⟩ := exists_of_reroll_any
    ⟨.hoard, SplitMix.source, 3⟩ [1] unrolledGem .root (.start default 8 (.empty default))
    (by decide +kernel)
  obtain ⟨final, hfinal, hfinal'⟩ := reroll_comm _ _ unrolledGem .root [] [0] [] 0 1 (by decide)
    rfl nofun _ _ 7 8 _ _ roll roll' node node' t t' hroll h hroll' h'
  exact ⟨roll, roll', node, node', t, t', final, hroll, h, hroll', h', hfinal, hfinal'⟩

end Roller
end RandomTables
