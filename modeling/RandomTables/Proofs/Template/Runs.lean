import RandomTables.Proofs.Roll.Basic
import RandomTables.Template.Resolution

/-!
# Runs of a template

What a component comes to is told by `Comes`, with one case for each kind of component and two for a
block, which is passed over or selected. A component that is no block comes to its piece whatever is
known of the blocks beside it, and a list is resolved one component after another. Facts about the
runs of a template are shown by these cases and by recursion on the list, and do not look into the
computation again.
-/
namespace RandomTables

def Component.chance? : Component → Option Nat
  | percent chance _ _ => some chance
  | _ => none

namespace Template
open Roll

/-- The component comes to the piece, from one state and pass to another, where the draw for the
blocks of its list has been made. -/
inductive Comes (source : Source) (s : Surroundings) :
    RollState → Pass → Component → Resolved → RollState → Pass → Prop
  | plain {t : RollState} {pass : Pass} (text : Text) :
    Comes source s t pass (.plain text) (.plain text) t pass
  | input {t : RollState} {pass : Pass} (placeholder : Placeholder) :
    Comes source s t pass (.input placeholder) (s.fill pass.values placeholder) t pass
  | computed {t u : RollState} {pass : Pass} {name : Text} {expr : Dice.Expr} {total : Int}
    {groups : List DiceGroup} :
    (expr.evaluate source ("computed value " ++ name)).runFrom t = (.ok (total, groups), u) →
    Comes source s t pass (.computed name expr) (.value name total groups) u
      (pass.noteValue name total)
  | reference {t : RollState} {pass : Pass} (ref : Reference) (name : Option Text) :
    Comes source s t pass (.reference ref name) (.reference pass.refs.length name) t
      (pass.noteReference ref)
  | passedOver {t : RollState} {pass : Pass} (chance : Nat) (label : Text)
    (inner : List Component) :
    Comes source s t pass (.percent chance label inner) (.percent label chance false []) t pass
  | selected {t u : RollState} {pass after : Pass} {inner : List Component}
    {text : List Resolved} (chance : Nat) (label : Text) :
    (resolveAll source s .start pass inner).runFrom t = (.ok (text, after), u) →
    Comes source s t pass (.percent chance label inner) (.percent label chance true text) u after

variable {source : Source} {s : Surroundings} {chances next : Chances} {pass after : Pass}
  {t t' : RollState}

/-- A placeholder is filled in with an input, be it found or not. -/
theorem Surroundings.exists_fill_eq (s : Surroundings) (values : Bindings (List Int))
    (p : Placeholder) :
    ∃ text found, s.fill values p = .input p.key text p.color p.background found := by
  unfold fill
  cases s.textUnder values p.key p.index with
  | none => exact ⟨"", false, rfl⟩
  | some text => exact ⟨_, true, rfl⟩

/-- A component that is no block leaves what is known of the blocks as it is. -/
theorem comes_of_no_block {c : Component} {piece : Resolved} (hc : c.chance? = none)
    (h : (resolveOne source s chances pass c).runFrom t = (.ok (piece, next, after), t')) :
    Comes source s t pass c piece t' after ∧ next = chances := by
  cases c with
  | plain text =>
    simp only [resolveOne] at h
    obtain ⟨heq, rfl⟩ := runFrom_pure_eq_ok_iff.1 h
    cases heq
    exact ⟨.plain text, rfl⟩
  | input placeholder =>
    simp only [resolveOne] at h
    obtain ⟨heq, rfl⟩ := runFrom_pure_eq_ok_iff.1 h
    cases heq
    exact ⟨.input placeholder, rfl⟩
  | computed name expr =>
    simp only [resolveOne] at h
    obtain ⟨⟨total, groups⟩, u, hrun, h⟩ := runFrom_bind_eq_ok_iff.1 h
    obtain ⟨heq, rfl⟩ := runFrom_pure_eq_ok_iff.1 h
    cases heq
    exact ⟨.computed hrun, rfl⟩
  | percent chance label inner => cases hc
  | reference ref name =>
    simp only [resolveOne] at h
    obtain ⟨heq, rfl⟩ := runFrom_pure_eq_ok_iff.1 h
    cases heq
    exact ⟨.reference ref name, rfl⟩

/-- What comes of a block is its inner list if it is selected, and nothing if it is not. -/
theorem resolveOne_percent_eq_ok_iff {chance : Nat} {label : Text} {inner : List Component}
    {piece : Resolved} :
    (resolveOne source s chances pass (.percent chance label inner)).runFrom t =
        (.ok (piece, next, after), t') ↔
      (∃ u text, (chances.next source chance).runFrom t = (.ok (true, next), u) ∧
        (resolveAll source s .start pass inner).runFrom u = (.ok (text, after), t') ∧
        piece = .percent label chance true text) ∨
      (chances.next source chance).runFrom t = (.ok (false, next), t') ∧
        piece = .percent label chance false [] ∧ after = pass := by
  simp only [resolveOne]
  constructor
  · intro h
    obtain ⟨⟨selected, settled⟩, u, hnext, h⟩ := runFrom_bind_eq_ok_iff.1 h
    cases selected with
    | true =>
      obtain ⟨⟨text, last⟩, v, hrun, h⟩ := runFrom_bind_eq_ok_iff.1 h
      obtain ⟨heq, rfl⟩ := runFrom_pure_eq_ok_iff.1 h
      cases heq
      exact .inl ⟨u, text, hnext, hrun, rfl⟩
    | false =>
      obtain ⟨heq, rfl⟩ := runFrom_pure_eq_ok_iff.1 h
      cases heq
      exact .inr ⟨hnext, rfl, rfl⟩
  · rintro (⟨u, text, hnext, hrun, rfl⟩ | ⟨hnext, rfl, rfl⟩)
    · rw [runFrom_bind_of_ok hnext]
      exact runFrom_bind_eq_ok_iff.2 ⟨_, _, hrun, rfl⟩
    · rw [runFrom_bind_of_ok hnext]
      rfl

theorem resolveAll_nil_eq_ok_iff {text : List Resolved} :
    (resolveAll source s chances pass []).runFrom t = (.ok (text, after), t') ↔
      text = [] ∧ after = pass ∧ t' = t := by
  simp only [resolveAll]
  constructor
  · intro h
    obtain ⟨heq, rfl⟩ := runFrom_pure_eq_ok_iff.1 h
    cases heq
    exact ⟨rfl, rfl, rfl⟩
  · rintro ⟨rfl, rfl, rfl⟩
    rfl

/-- A list comes to what its first component comes to and what the others come to after it. -/
theorem resolveAll_cons_eq_ok_iff {c : Component} {cs : List Component} {text : List Resolved} :
    (resolveAll source s chances pass (c :: cs)).runFrom t = (.ok (text, after), t') ↔
      ∃ piece next mid u pieces,
        (resolveOne source s chances pass c).runFrom t = (.ok (piece, next, mid), u) ∧
        (resolveAll source s next mid cs).runFrom u = (.ok (pieces, after), t') ∧
        text = piece :: pieces := by
  simp only [resolveAll]
  constructor
  · intro h
    obtain ⟨⟨piece, next, mid⟩, u, hone, h⟩ := runFrom_bind_eq_ok_iff.1 h
    obtain ⟨⟨pieces, last⟩, v, hall, h⟩ := runFrom_bind_eq_ok_iff.1 h
    obtain ⟨heq, rfl⟩ := runFrom_pure_eq_ok_iff.1 h
    cases heq
    exact ⟨piece, next, mid, u, pieces, hone, hall, rfl⟩
  · rintro ⟨piece, next, mid, u, pieces, hone, hall, rfl⟩
    rw [runFrom_bind_of_ok hone]
    exact runFrom_bind_eq_ok_iff.2 ⟨_, _, hall, rfl⟩

end Template
end RandomTables
