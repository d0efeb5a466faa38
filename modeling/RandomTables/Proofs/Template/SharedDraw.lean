import Mathlib.Algebra.BigOperators.Group.List.Basic
import Mathlib.Order.Bounds.Basic
import RandomTables.Proofs.Dice.Accounted
import RandomTables.Proofs.Template.Resolvable
import RandomTables.Proofs.Template.Runs

/-!
# The draw that the blocks of a list share

The blocks of one list have one draw of a hundred in common. What is told here is told with this draw
known: each component of the list goes on from where the one before it left off, a block that is
passed over comes to an empty text and leaves everything as it is, and the block that is selected
comes to what its inner list comes to, which is a list of its own. The draw is made when the first
block is reached, and which block is selected is read off the chances: the first whose sum with those
before it reaches the draw.

What is written inside the blocks that are passed over, at whatever depth, has no say in anything.
-/
namespace RandomTables

/-- Whether a piece that a block came to was selected. -/
def Resolved.selected? : Resolved → Option Bool
  | percent _ _ selected _ => some selected
  | _ => none

namespace Template
open Roll

/-- The chances of the blocks of a list, in order. -/
def chancesOf (cs : List Component) : List Nat := cs.filterMap Component.chance?

/-- Which of the blocks of a list were selected, in order. -/
def selections (text : List Resolved) : List Bool := text.filterMap Resolved.selected?

theorem chancesOf_append (cs others : List Component) :
    chancesOf (cs ++ others) = chancesOf cs ++ chancesOf others := List.filterMap_append

theorem selections_append (text more : List Resolved) :
    selections (text ++ more) = selections text ++ selections more := List.filterMap_append

/-! ## One component after another -/

/-- The components come to the pieces, each from where the one before it left off. -/
inductive Walks (source : Source) (s : Surroundings) :
    RollState → Pass → List Component → List Resolved → RollState → Pass → Prop
  | nil {t : RollState} {pass : Pass} : Walks source s t pass [] [] t pass
  | cons {t u t' : RollState} {pass mid after : Pass} {c : Component} {cs : List Component}
    {piece : Resolved} {pieces : List Resolved} :
    Comes source s t pass c piece u mid → Walks source s u mid cs pieces t' after →
    Walks source s t pass (c :: cs) (piece :: pieces) t' after

variable {source : Source} {s : Surroundings} {pass mid after : Pass} {t t' u : RollState}
  {text : List Resolved}

/-- A piece says whether it was selected exactly if its component is a block. -/
theorem Comes.isSome_selected? {c : Component} {piece : Resolved}
    (h : Comes source s t pass c piece u mid) : piece.selected?.isSome = c.chance?.isSome := by
  cases h with
  | input placeholder =>
    obtain ⟨text, found, hfill⟩ := s.exists_fill_eq pass.values placeholder
    rw [hfill]
    rfl
  | _ => rfl

theorem Walks.length_selections {cs : List Component} (h : Walks source s t pass cs text t' after) :
    (selections text).length = (chancesOf cs).length := by
  induction h with
  | nil => rfl
  | @cons _ _ _ _ _ _ c cs piece pieces hfirst _ ih =>
    have hsame := hfirst.isSome_selected?
    unfold selections chancesOf at ih ⊢
    cases hpiece : piece.selected? <;> cases hc : c.chance? <;>
      simp_all

/-! ## Which block is selected -/

namespace Chances

/-- Whether the next block is selected and what is known after it, given the draw. -/
def settle (c : Chances) (d : Int) (chance : Nat) : Bool × Chances :=
  if c.decided then (false, { c with drawn := some d })
  else (d ≤ c.reached + chance, ⟨some d, c.reached + chance, d ≤ c.reached + chance⟩)

theorem next_eq (source : Source) (c : Chances) (chance : Nat) :
    c.next source chance = c.draw source >>= fun d => pure (c.settle d chance) := by
  unfold next settle
  cases c.decided <;> rfl

theorem draw_of_drawn {c : Chances} {d : Int} (h : c.drawn = some d) (source : Source) :
    c.draw source = pure d := by
  rw [draw, h]

@[simp] theorem settle_drawn (c : Chances) (d : Int) (chance : Nat) :
    (c.settle d chance).2.drawn = some d := by
  unfold settle
  split <;> rfl

/-- That a draw has been made before does not change what is settled with it. -/
theorem settle_of_drawn (c : Chances) (d : Int) (chance : Nat) :
    ({ c with drawn := some d } : Chances).settle d chance = c.settle d chance := rfl

/-- Which of the blocks with these chances are selected, given the draw. -/
def picks (c : Chances) (d : Int) : List Nat → List Bool
  | [] => []
  | chance :: rest => (c.settle d chance).1 :: (c.settle d chance).2.picks d rest

/-- No block is selected after one was. -/
theorem not_mem_picks {c : Chances} (h : c.decided = true) (d : Int) (chances : List Nat) :
    true ∉ c.picks d chances := by
  induction chances generalizing c with
  | nil => exact List.not_mem_nil
  | cons chance rest ih =>
    have hsettle : c.settle d chance = (false, { c with drawn := some d }) := by
      rw [settle, if_pos h]
    rw [picks, hsettle, List.mem_cons, not_or]
    exact ⟨Bool.noConfusion, ih h⟩

end Chances

/-- The numbers of the blocks whose chance together with those before it reaches the draw. -/
def reaching (d : Int) (chances : List Nat) : Set Nat :=
  {i | i < chances.length ∧ d ≤ ((chances.take (i + 1)).sum : Nat)}

theorem zero_mem_reaching_iff {d : Int} {chance : Nat} {rest : List Nat} :
    0 ∈ reaching d (chance :: rest) ↔ d ≤ chance := by
  simp [reaching]

theorem succ_mem_reaching_iff {d : Int} {chance : Nat} {rest : List Nat} {i : Nat} :
    i + 1 ∈ reaching d (chance :: rest) ↔ i ∈ reaching (d - chance) rest := by
  simp only [reaching, Set.mem_ofPred_eq, List.length_cons, List.take_succ_cons, List.sum_cons]
  omega

/-- If the first block does not reach the draw, the others have to reach what is left of it. -/
theorem isLeast_reaching_succ_iff {d : Int} {chance : Nat} {rest : List Nat} {i : Nat}
    (h : ¬ d ≤ chance) :
    IsLeast (reaching d (chance :: rest)) (i + 1) ↔ IsLeast (reaching (d - chance) rest) i := by
  constructor
  · rintro ⟨hmem, hleast⟩
    refine ⟨succ_mem_reaching_iff.1 hmem, fun j hj => ?_⟩
    exact Nat.le_of_succ_le_succ (hleast (succ_mem_reaching_iff.2 hj))
  · rintro ⟨hmem, hleast⟩
    refine ⟨succ_mem_reaching_iff.2 hmem, fun j hj => ?_⟩
    cases j with
    | zero => exact absurd (zero_mem_reaching_iff.1 hj) h
    | succ j => exact Nat.succ_le_succ (hleast (succ_mem_reaching_iff.1 hj))

/-- Of the blocks with these chances the first one that reaches the draw is picked, and none if the
sum of all chances is below it. -/
structure Selects (d : Int) (chances : List Nat) (picked : List Bool) : Prop where
  length : picked.length = chances.length
  least : ∀ i, picked[i]? = some true ↔ IsLeast (reaching d chances) i
  none : (chances.sum : Int) < d → true ∉ picked

/-- If the sum of all chances is below the draw, no block reaches it. -/
theorem reaching_eq_empty {d : Int} {chances : List Nat} (h : (chances.sum : Int) < d) :
    reaching d chances = ∅ := by
  refine Set.eq_empty_iff_forall_notMem.2 fun i hi => ?_
  have hsum : (chances.take (i + 1)).sum ≤ chances.sum := by
    rw [← List.sum_take_add_sum_drop chances (i + 1)]
    exact Nat.le_add_right _ _
  have hreaches := hi.2
  omega

theorem selects_of_least {d : Int} {chances : List Nat} {picked : List Bool}
    (hlength : picked.length = chances.length)
    (hleast : ∀ i, picked[i]? = some true ↔ IsLeast (reaching d chances) i) :
    Selects d chances picked := by
  refine ⟨hlength, hleast, fun hsum hmem => ?_⟩
  obtain ⟨i, hi⟩ := List.mem_iff_getElem?.1 hmem
  have hreaching := ((hleast i).1 hi).1
  rw [reaching_eq_empty hsum] at hreaching
  exact hreaching

/-- The block that is selected is the first one that reaches what is left of the draw. -/
theorem Chances.getElem?_picks_iff {c : Chances} (h : c.decided = false) (d : Int)
    (chances : List Nat) (i : Nat) :
    (c.picks d chances)[i]? = some true ↔ IsLeast (reaching (d - c.reached) chances) i := by
  induction chances generalizing c i with
  | nil => simp [picks, reaching, IsLeast]
  | cons chance rest ih =>
    have hsettle : c.settle d chance = (decide (d ≤ c.reached + chance),
        ⟨some d, c.reached + chance, decide (d ≤ c.reached + chance)⟩) := by
      rw [settle, h]
      rfl
    rw [picks, hsettle]
    by_cases hreaches : d ≤ c.reached + chance
    · have hzero : 0 ∈ reaching (d - c.reached) (chance :: rest) :=
        zero_mem_reaching_iff.2 (by omega)
      cases i with
      | zero => simpa [hreaches] using ⟨hzero, fun j _ => Nat.zero_le j⟩
      | succ i =>
        have hnone := not_mem_picks (c := ⟨some d, c.reached + chance, true⟩) rfl d rest
        have hleast : ¬ IsLeast (reaching (d - c.reached) (chance :: rest)) (i + 1) := by
          intro hleast
          exact absurd (hleast.2 hzero) (Nat.not_succ_le_zero i)
        rw [List.getElem?_cons_succ, decide_eq_true hreaches]
        exact iff_of_false (fun hsome => hnone (List.mem_of_getElem? hsome)) hleast
    · have hfirst : ¬ d - c.reached ≤ chance := by omega
      cases i with
      | zero =>
        have hleast : ¬ IsLeast (reaching (d - c.reached) (chance :: rest)) 0 := by
          intro hleast
          exact hfirst (zero_mem_reaching_iff.1 hleast.1)
        simpa [hreaches] using hleast
      | succ i =>
        rw [isLeast_reaching_succ_iff hfirst, List.getElem?_cons_succ, decide_eq_false hreaches,
          ih rfl]
        have hleft : d - ((c.reached + chance : Nat) : Int) = d - c.reached - chance := by
          push_cast
          omega
        rw [hleft]

/-! ## Runs -/

/-- A block is settled with the draw that was made, if there is one. -/
theorem comes_of_block {chances next : Chances} {d : Int} (hd : chances.drawn = some d)
    {chance : Nat} {label : Text} {inner : List Component} {piece : Resolved}
    (h : (resolveOne source s chances pass (.percent chance label inner)).runFrom t =
      (.ok (piece, next, after), t')) :
    Comes source s t pass (.percent chance label inner) piece t' after ∧
      piece.selected? = some (chances.settle d chance).1 ∧ next = (chances.settle d chance).2 := by
  rw [resolveOne_percent_eq_ok_iff, Chances.next_eq, Chances.draw_of_drawn hd, pure_bind] at h
  rcases h with ⟨u, text, hnext, hrun, rfl⟩ | ⟨hnext, rfl, rfl⟩
  · obtain ⟨hsettle, rfl⟩ := runFrom_pure_eq_ok_iff.1 hnext
    rw [hsettle]
    exact ⟨.selected chance label hrun, rfl, rfl⟩
  · obtain ⟨hsettle, rfl⟩ := runFrom_pure_eq_ok_iff.1 hnext
    rw [hsettle]
    exact ⟨.passedOver chance label inner, rfl, rfl⟩

/-- Once the draw is made, the components come to their pieces one after another, and the blocks are
picked with this draw. -/
theorem walks_of_drawn {chances : Chances} {d : Int} (hd : chances.drawn = some d)
    {cs : List Component}
    (h : (resolveAll source s chances pass cs).runFrom t = (.ok (text, after), t')) :
    Walks source s t pass cs text t' after ∧ selections text = chances.picks d (chancesOf cs) := by
  induction cs generalizing chances pass t text with
  | nil =>
    obtain ⟨rfl, rfl, rfl⟩ := resolveAll_nil_eq_ok_iff.1 h
    exact ⟨.nil, rfl⟩
  | cons c cs ih =>
    obtain ⟨piece, next, mid, u, pieces, hfirst, hrest, rfl⟩ := resolveAll_cons_eq_ok_iff.1 h
    cases hc : c.chance? with
    | none =>
      obtain ⟨hcomes, rfl⟩ := comes_of_no_block hc hfirst
      obtain ⟨hwalks, hselections⟩ := ih hd hrest
      have hpiece : piece.selected? = none := by
        have := hcomes.isSome_selected?
        rw [hc] at this
        simpa using this
      refine ⟨.cons hcomes hwalks, ?_⟩
      rw [selections, List.filterMap_cons_none hpiece, chancesOf, List.filterMap_cons_none hc]
      exact hselections
    | some chance =>
      obtain ⟨label, inner, rfl⟩ : ∃ label inner, c = .percent chance label inner := by
        cases c with
        | percent chance' label inner =>
          obtain rfl := Option.some.inj hc
          exact ⟨label, inner, rfl⟩
        | _ => cases hc
      obtain ⟨hcomes, hpiece, rfl⟩ := comes_of_block hd hfirst
      obtain ⟨hwalks, hselections⟩ := ih (chances.settle_drawn d chance) hrest
      refine ⟨.cons hcomes hwalks, ?_⟩
      rw [selections, List.filterMap_cons_some hpiece, chancesOf, List.filterMap_cons_some hc,
        Chances.picks]
      exact congrArg _ hselections

/-- Up to the first block nothing is drawn for the blocks. -/
theorem walks_of_no_block {chances : Chances} {front rest : List Component}
    (hfront : chancesOf front = [])
    (h : (resolveAll source s chances pass (front ++ rest)).runFrom t = (.ok (text, after), t')) :
    ∃ first others u mid, text = first ++ others ∧ Walks source s t pass front first u mid ∧
      (resolveAll source s chances mid rest).runFrom u = (.ok (others, after), t') := by
  induction front generalizing pass t text with
  | nil => exact ⟨[], text, t, pass, rfl, .nil, h⟩
  | cons c front ih =>
    rw [chancesOf, List.filterMap_eq_nil_iff] at hfront
    have hc := hfront c (List.mem_cons_self ..)
    have hothers : chancesOf front = [] :=
      List.filterMap_eq_nil_iff.2 fun c' hc' => hfront c' (List.mem_cons_of_mem _ hc')
    rw [List.cons_append] at h
    obtain ⟨piece, next, mid, u, pieces, hfirst, hrest, rfl⟩ := resolveAll_cons_eq_ok_iff.1 h
    obtain ⟨hcomes, rfl⟩ := comes_of_no_block hc hfirst
    obtain ⟨first, others, w, mid', rfl, hwalks, hrun⟩ := ih hothers hrest
    exact ⟨piece :: first, others, w, mid', rfl, .cons hcomes hwalks, hrun⟩

/-- The first block makes the draw, and everything goes on as if the draw had been there before. -/
theorem drawn_of_first_block {chances : Chances} (hnone : chances.drawn = none) {chance : Nat}
    {label : Text} {inner rest : List Component}
    (h : (resolveAll source s chances pass (.percent chance label inner :: rest)).runFrom t =
      (.ok (text, after), t')) :
    ∃ rolled u, (percentile source "percent chance").runFrom t = (.ok rolled, u) ∧
      (resolveAll source s { chances with drawn := some rolled.total } pass
        (.percent chance label inner :: rest)).runFrom u = (.ok (text, after), t') := by
  have hdraw : chances.draw source =
      percentile source "percent chance" >>= fun rolled => pure rolled.total := by
    rw [Chances.draw, hnone]
  simp only [resolveAll, resolveOne, Chances.next_eq, hdraw, bind_assoc, pure_bind] at h
  obtain ⟨rolled, u, hrolled, h⟩ := runFrom_bind_eq_ok_iff.1 h
  refine ⟨rolled, u, hrolled, ?_⟩
  simp only [resolveAll, resolveOne, Chances.next_eq, Chances.draw, pure_bind,
    Chances.settle_of_drawn]
  exact h

/-! ## Blocks that were passed over -/

mutual

/-- Given what the one component came to, the other differs from it at most inside of blocks that
were passed over. -/
inductive Alike : Component → Resolved → Component → Prop
  | same (c : Component) (piece : Resolved) : Alike c piece c
  | passedOver (chance : Nat) (label : Text) (inner other : List Component) :
    Alike (.percent chance label inner) (.percent label chance false []) (.percent chance label other)
  | selected (chance : Nat) (label : Text) {inner other : List Component} {text : List Resolved} :
    AllAlike inner text other →
    Alike (.percent chance label inner) (.percent label chance true text)
      (.percent chance label other)

/-- The same of the components of two lists, one by one. -/
inductive AllAlike : List Component → List Resolved → List Component → Prop
  | nil : AllAlike [] [] []
  | cons {c other : Component} {piece : Resolved} {cs others : List Component}
    {pieces : List Resolved} :
    Alike c piece other → AllAlike cs pieces others →
    AllAlike (c :: cs) (piece :: pieces) (other :: others)

end

mutual

theorem resolveOne_of_alike {chances next : Chances} {pass after : Pass} {t t' : RollState} :
    {c other : Component} → {piece : Resolved} → Alike c piece other →
      (resolveOne source s chances pass c).runFrom t = (.ok (piece, next, after), t') →
        (resolveOne source s chances pass other).runFrom t = (.ok (piece, next, after), t')
  | _, _, _, .same c piece, h => h
  | _, _, _, .passedOver chance label inner other, h => by
    rw [resolveOne_percent_eq_ok_iff] at h ⊢
    rcases h with ⟨u, text, hnext, hrun, hpiece⟩ | h
    · cases hpiece
    · exact .inr h
  | _, _, _, .selected chance label halike, h => by
    rw [resolveOne_percent_eq_ok_iff] at h ⊢
    rcases h with ⟨u, text, hnext, hrun, hpiece⟩ | ⟨_, hpiece, _⟩
    · cases hpiece
      exact .inl ⟨u, _, hnext, resolveAll_of_alike halike hrun, rfl⟩
    · cases hpiece

/-- What is written inside of blocks that were passed over has no say in a run. -/
theorem resolveAll_of_alike {chances : Chances} {pass after : Pass} {t t' : RollState} :
    {cs others : List Component} → {text : List Resolved} → AllAlike cs text others →
      (resolveAll source s chances pass cs).runFrom t = (.ok (text, after), t') →
        (resolveAll source s chances pass others).runFrom t = (.ok (text, after), t')
  | _, _, _, .nil, h => h
  | _, _, _, .cons hfirst hrest, h => by
    obtain ⟨piece, next, mid, u, pieces, hone, hall, heq⟩ := resolveAll_cons_eq_ok_iff.1 h
    cases heq
    exact resolveAll_cons_eq_ok_iff.2 ⟨_, next, mid, u, _, resolveOne_of_alike hfirst hone,
      resolveAll_of_alike hrest hall, rfl⟩

end

/-! ## One draw for a list -/

/-- The blocks of a list share one draw: what there is before the first block is resolved without
it, one die of a hundred is rolled when the first block is reached, and everything from there on is
resolved with it known. The block that is selected is the first one whose chance together with those
before it reaches the draw; none is if the sum of all chances is below it. -/
structure SharesDraw (source : Source) (s : Surroundings) (t : RollState) (pass : Pass)
    (cs : List Component) (text : List Resolved) (t' : RollState) (after : Pass) : Prop where
  /-- No draw is made for a list without blocks. -/
  without_blocks : chancesOf cs = [] → Walks source s t pass cs text t' after
  with_blocks : ∀ (front : List Component) (chance : Nat) (label : Text)
    (inner rest : List Component),
    cs = front ++ .percent chance label inner :: rest → chancesOf front = [] →
      ∃ first others u mid rolled v, text = first ++ others ∧
        Walks source s t pass front first u mid ∧
        (percentile source "percent chance").runFrom u = (.ok rolled, v) ∧
        u.Accounts source "percent chance" [⟨1, 100⟩] [rolled] v ∧
        Walks source s v mid (.percent chance label inner :: rest) others t' after ∧
        Selects rolled.total (chancesOf cs) (selections text)

/-- Pieces of components that are no blocks were neither selected nor passed over. -/
theorem Walks.selections_eq_nil {cs : List Component}
    (h : Walks source s t pass cs text t' after) (hcs : chancesOf cs = []) :
    selections text = [] := by
  have hlength := h.length_selections
  rw [hcs] at hlength
  exact List.length_eq_zero_iff.1 hlength

theorem sharesDraw_of_resolveAll {cs : List Component}
    (h : (resolveAll source s .start pass cs).runFrom t = (.ok (text, after), t')) :
    SharesDraw source s t pass cs text t' after := by
  constructor
  · intro hcs
    rw [← List.append_nil cs] at h
    obtain ⟨first, others, u, mid, rfl, hwalks, hrun⟩ := walks_of_no_block hcs h
    obtain ⟨rfl, rfl, rfl⟩ := resolveAll_nil_eq_ok_iff.1 hrun
    rwa [List.append_nil]
  · rintro front chance label inner rest rfl hfront
    obtain ⟨first, others, u, mid, rfl, hfirst, hrun⟩ := walks_of_no_block hfront h
    obtain ⟨rolled, v, hrolled, hrun⟩ := drawn_of_first_block rfl hrun
    obtain ⟨hothers, hpicks⟩ := walks_of_drawn rfl hrun
    -- What comes before the first block adds neither chances nor selections.
    rw [chancesOf_append, hfront, selections_append, hfirst.selections_eq_nil hfront,
      List.nil_append, List.nil_append]
    refine ⟨first, others, u, mid, rolled, v, rfl, hfirst, hrolled, group_accounts hrolled, hothers,
      selects_of_least hothers.length_selections fun i => ?_⟩
    rw [hpicks, Chances.getElem?_picks_iff rfl]
    simp [Chances.start]

/-- A list of components can be resolved, as a template or as the inner list of a block, whatever
the pass has come by so far, and its blocks share one draw. Writing anything else into the blocks
that were passed over changes nothing: neither the text, nor the references, values and stored
values, nor the state that the run ends in with the next seed. -/
theorem blocks_share_draw (source : Source) (s : Surroundings) {cs : List Component}
    (h : Component.AllResolvable cs) (t : RollState) :
    (∀ pass, ∃ text after t',
      (resolveAll source s .start pass cs).runFrom t = (.ok (text, after), t') ∧
        SharesDraw source s t pass cs text t' after ∧
        ∀ others, AllAlike cs text others →
          (resolveAll source s .start pass others).runFrom t = (.ok (text, after), t')) ∧
    ∀ store, ∃ found t', (resolve source s store cs).runFrom t = (.ok found, t') ∧
      (∃ after, SharesDraw source s t .start cs found.text t' after ∧
        found.refs = after.refs ∧ found.values = after.values) ∧
      ∀ others, AllAlike cs found.text others →
        (resolve source s store others).runFrom t = (.ok found, t') := by
  constructor
  · intro pass
    obtain ⟨⟨text, after⟩, t', hrun, -⟩ := resolveAll_succeeds source s .start pass cs h t
    exact ⟨text, after, t', hrun, sharesDraw_of_resolveAll hrun,
      fun others halike => resolveAll_of_alike halike hrun⟩
  · intro store
    obtain ⟨⟨text, after⟩, t', hrun, -⟩ := resolveAll_succeeds source s .start .start cs h t
    refine ⟨_, t', runFrom_bind_of_ok hrun, ⟨after, sharesDraw_of_resolveAll hrun, rfl, rfl⟩, ?_⟩
    intro others halike
    exact runFrom_bind_of_ok (resolveAll_of_alike halike hrun)

/-- A block with a block in it, a number, and a block with a reference. -/
def fork (rare common : List Component) : List Component :=
  [.percent 20 "20%" [.percent 50 "50%" rare], .computed "n" (.dice 1 6 false),
    .percent 80 "80%" common]

/-- With 15 the first of two blocks is selected, and with 60 the block in it is passed over. A die
without sides does no harm there. -/
theorem fork_shares_draw :
    Component.AllResolvable (fork [.plain "gold"] [.reference (.toPath "/gem") none]) ∧
      (∃ text after t', (resolveAll (Replay.start 0 #[15, 60, 4]).source default .start .start
          (fork [.plain "gold"] [.reference (.toPath "/gem") none])).runFrom
            (.start default 0 (.empty default)) = (.ok (text, after), t') ∧
        selections text = [true, false] ∧
        SharesDraw (Replay.start 0 #[15, 60, 4]).source default
          (.start default 0 (.empty default)) .start
          (fork [.plain "gold"] [.reference (.toPath "/gem") none]) text t' after) ∧
      ∃ found t', (resolve (Replay.start 0 #[15, 60, 4]).source default .empty
          (fork [.plain "gold"] [.reference (.toPath "/gem") none])).runFrom
            (.start default 0 (.empty default)) = (.ok found, t') ∧
        (resolve (Replay.start 0 #[15, 60, 4]).source default .empty
          (fork [.computed "m" (.dice 1 0 false)] [])).runFrom
            (.start default 0 (.empty default)) = (.ok found, t') := by
  have hresolvable :
      Component.AllResolvable (fork [.plain "gold"] [.reference (.toPath "/gem") none]) := by
    simp [fork, Component.AllResolvable, Component.Resolvable]
  obtain ⟨hlist, htemplate⟩ := blocks_share_draw (Replay.start 0 #[15, 60, 4]).source default
    hresolvable (.start default 0 (.empty default))
  obtain ⟨text, after, t', hrun, hshares, _⟩ := hlist .start
  obtain ⟨found, t'', hfound, _, halike⟩ := htemplate .empty
  obtain ⟨groups, pass, u, hpieces⟩ : ∃ groups pass u,
      (resolveAll (Replay.start 0 #[15, 60, 4]).source default .start .start
        (fork [.plain "gold"] [.reference (.toPath "/gem") none])).runFrom
          (.start default 0 (.empty default)) =
        (.ok ([.percent "20%" 20 true [.percent "50%" 50 false []], .value "n" 4 groups,
          .percent "80%" 80 false []], pass), u) := ⟨_, _, _, rfl⟩
  rw [hpieces] at hrun
  cases hrun
  refine ⟨hresolvable, ⟨_, _, _, hpieces, rfl, hshares⟩, found, t'', hfound, halike _ ?_⟩
  rw [resolve, runFrom_bind_of_ok hpieces] at hfound
  cases hfound
  exact .cons (.selected 20 "20%" (.cons (.passedOver 50 "50%" _ _) .nil))
    (.cons (.same _ _) (.cons (.passedOver 80 "80%" _ _) .nil))

end Template
end RandomTables
