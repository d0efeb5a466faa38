import RandomTables.Proofs.Template.Runs

/-!
# How references in resolved text are numbered

Resolving a template numbers the references that it collects in the order in which they are read off
the resolved text, through blocks that were selected and on behind them. If there is a text for each
of these numbers, then writing the resolved text takes up the texts one after another, every one of
them once.
-/
namespace RandomTables
open Roll

namespace Resolved

mutual

/-- The numbers of the references in a piece, from left to right. -/
def indices : Resolved → List Nat
  | reference index _ => [index]
  | percent _ _ selected inner => if selected then indicesOf inner else []
  | _ => []

/-- The numbers of the references in some pieces, from left to right. -/
def indicesOf : List Resolved → List Nat
  | [] => []
  | piece :: rest => piece.indices ++ indicesOf rest

end

mutual

/-- The text of a piece where each reference takes up the first of the texts that are left, and the
texts that are left after it; nothing if a reference finds none left. -/
def pour (left : List Text) : Resolved → Option (Text × List Text)
  | plain text => some (text, left)
  | value _ n _ => some (Text.integer n, left)
  | input _ text _ _ _ => some (text, left)
  | percent _ _ selected inner => if selected then pourAll left inner else some ("", left)
  | reference _ _ => left.head?.map fun first => (first, left.tail)

/-- The text of some pieces, where references take up texts from left to right. -/
def pourAll (left : List Text) : List Resolved → Option (Text × List Text)
  | [] => some ("", left)
  | piece :: rest => do
    let (text, left) ← piece.pour left
    let (more, left) ← pourAll left rest
    return (text ++ more, left)

end

/-! ## Numbers in a row -/

theorem eq_of_range_eq {a b : Nat} (h : List.range b = List.range a ++ []) : a = b := by
  have hlength := congrArg List.length h
  simpa using hlength.symm

/-- Where two lists of numbers together go on from `a` to `b`, the first one goes on to somewhere in
between and the second one from there. -/
theorem exists_range_between {a b : Nat} {first second : List Nat}
    (h : List.range b = List.range a ++ (first ++ second)) :
    ∃ m, m ≤ b ∧ List.range m = List.range a ++ first ∧ List.range b = List.range m ++ second := by
  have hlength := congrArg List.length h
  simp only [List.length_append, List.length_range] at hlength
  have hfirst : List.range (a + first.length) = List.range a ++ first := by
    have htake := congrArg (List.take (a + first.length)) h
    rw [List.take_range, Nat.min_eq_left (by omega), ← List.append_assoc] at htake
    rw [htake]
    exact List.take_left' (by simp)
  refine ⟨a + first.length, by omega, hfirst, ?_⟩
  rw [h, hfirst, List.append_assoc]

/-! ## Writing the text -/

mutual

/-- A piece whose references go on counting from `a` to `b` takes up the texts from number `a` to
number `b`, and is written with them. -/
theorem pour_drop {texts : List Text} {a b : Nat} (hb : b ≤ texts.length) :
    (piece : Resolved) → List.range b = List.range a ++ piece.indices →
      piece.pour (texts.drop a) = some (piece.write texts, texts.drop b)
  | .plain _, h | .value _ _ _, h | .input _ _ _ _ _, h => by
    obtain rfl := eq_of_range_eq h
    rfl
  | .percent _ _ selected inner, h => by
    cases selected with
    | true =>
      simp only [indices, if_true] at h
      simpa only [pour, write, if_true] using pourAll_drop hb inner h
    | false =>
      obtain rfl := eq_of_range_eq h
      rfl
  | .reference index _, h => by
    have hlength : b = a + 1 := by simpa [indices] using congrArg List.length h
    subst hlength
    obtain rfl : a = index := by simpa [indices, List.range_succ] using h
    have hdrop : texts.drop a = texts[a] :: texts.drop (a + 1) := List.drop_eq_getElem_cons hb
    have hget : texts[a]? = some texts[a] := List.getElem?_eq_getElem hb
    rw [pour, write, hget, hdrop]
    rfl

theorem pourAll_drop {texts : List Text} {a b : Nat} (hb : b ≤ texts.length) :
    (pieces : List Resolved) → List.range b = List.range a ++ indicesOf pieces →
      pourAll (texts.drop a) pieces = some (writeAll texts pieces, texts.drop b)
  | [], h => by
    obtain rfl := eq_of_range_eq h
    rfl
  | piece :: rest, h => by
    obtain ⟨m, hm, hfirst, hsecond⟩ := exists_range_between h
    have hpiece := pour_drop (Nat.le_trans hm hb) piece hfirst
    have hrest := pourAll_drop hb rest hsecond
    simp [pourAll, hpiece, hrest]

end

/-- A text with a reference for each number below a bound, in this order, takes up as many texts as
there are numbers. -/
theorem pourAll_eq_some {texts : List Text} {pieces : List Resolved}
    (h : indicesOf pieces = List.range texts.length) :
    pourAll texts pieces = some (writeAll texts pieces, []) := by
  have hrange : List.range texts.length = List.range 0 ++ indicesOf pieces := by
    rw [h]
    rfl
  simpa using pourAll_drop (Nat.le_refl _) pieces hrange

end Resolved

namespace Template

/-- A component that is no block numbers a reference on from those that were collected before. -/
theorem range_of_comes {source : Source} {s : Surroundings} {pass after : Pass} {c : Component}
    {piece : Resolved} {t t' : RollState} (hc : c.chance? = none)
    (h : Comes source s t pass c piece t' after) :
    List.range after.refs.length = List.range pass.refs.length ++ piece.indices := by
  cases h with
  | plain text => simp [Resolved.indices]
  | input placeholder =>
    obtain ⟨text, found, hfill⟩ := s.exists_fill_eq pass.values placeholder
    simp [hfill, Resolved.indices]
  | computed hrun => simp [Resolved.indices, Pass.noteValue]
  | reference ref name => simp [Resolved.indices, Pass.noteReference, List.range_succ]
  | passedOver => cases hc
  | selected => cases hc

mutual

/-- Resolving a component numbers its references on from those that were collected before. -/
theorem resolveOne_range {source : Source} {s : Surroundings} {chances next : Chances}
    {pass after : Pass} {piece : Resolved} {t t' : RollState} :
    (c : Component) →
      (resolveOne source s chances pass c).runFrom t = (.ok (piece, next, after), t') →
        List.range after.refs.length = List.range pass.refs.length ++ piece.indices
  | .plain _, h | .input _, h | .computed _ _, h | .reference _ _, h =>
    range_of_comes rfl (comes_of_no_block rfl h).1
  | .percent chance label inner, h => by
    rcases resolveOne_percent_eq_ok_iff.1 h with ⟨u, text, -, hinner, rfl⟩ | ⟨-, rfl, rfl⟩
    · simpa only [Resolved.indices, if_true] using resolveAll_range inner hinner
    · simp [Resolved.indices]

theorem resolveAll_range {source : Source} {s : Surroundings} {chances : Chances}
    {pass after : Pass} {text : List Resolved} {t t' : RollState} :
    (template : List Component) →
      (resolveAll source s chances pass template).runFrom t = (.ok (text, after), t') →
        List.range after.refs.length = List.range pass.refs.length ++ Resolved.indicesOf text
  | [], h => by
    obtain ⟨rfl, rfl, rfl⟩ := resolveAll_nil_eq_ok_iff.1 h
    simp [Resolved.indicesOf]
  | component :: rest, h => by
    obtain ⟨piece, next, mid, u, pieces, hfirst, hrest, rfl⟩ := resolveAll_cons_eq_ok_iff.1 h
    rw [resolveAll_range rest hrest, resolveOne_range component hfirst, Resolved.indicesOf,
      List.append_assoc]

end

/-- The references in a resolved text are numbered from left to right, one number for each reference
that was collected. -/
theorem indices_of_resolve {source : Source} {s : Surroundings} {store : Bindings Text}
    {template : List Component} {found : Resolution} {t t' : RollState}
    (h : (resolve source s store template).runFrom t = (.ok found, t')) :
    Resolved.indicesOf found.text = List.range found.refs.length := by
  obtain ⟨⟨text, pass⟩, _, hall, h⟩ := runFrom_bind_eq_ok_iff.1 h
  obtain ⟨rfl, _⟩ := runFrom_pure_eq_ok_iff.1 h
  have hrange := resolveAll_range template hall
  exact hrange.symm

end Template
end RandomTables
