import RandomTables.Proofs.Template.Runs

/-!
# References that are followed

Which of the references in a template are followed is settled when the template is resolved: those
in a block that was not selected are not. They can be read off the template and the text that it
came to, and they are the references that resolving the template collects, in the same order. All
of them are written in the template.
-/
namespace RandomTables.Template
open Roll

mutual

/-- The references of a component that are followed, given what the component came to. -/
def followedOne : Component → Resolved → List Reference
  | .reference ref _, _ => [ref]
  | .percent _ _ inner, .percent _ _ selected text => if selected then followed inner text else []
  | _, _ => []

/-- The references of a template that are followed, given what the template came to. -/
def followed : List Component → List Resolved → List Reference
  | component :: rest, piece :: pieces => followedOne component piece ++ followed rest pieces
  | _, _ => []

end

mutual

def referencesOne : Component → List Reference
  | .reference ref _ => [ref]
  | .percent _ _ inner => references inner
  | _ => []

/-- The references that are written in a template, from left to right. -/
def references : List Component → List Reference
  | [] => []
  | component :: rest => referencesOne component ++ references rest

end

mutual

theorem followedOne_sublist :
    (c : Component) → (piece : Resolved) → (followedOne c piece).Sublist (referencesOne c)
  | .reference ref name, piece => by
    simp only [followedOne, referencesOne]
    exact List.Sublist.refl _
  | .percent chance label inner, .percent _ _ selected text => by
    simp only [followedOne, referencesOne]
    split
    · exact followed_sublist inner text
    · exact List.nil_sublist _
  | .percent chance label inner, .plain _ | .percent chance label inner, .value _ _ _
  | .percent chance label inner, .input _ _ _ _ _ | .percent chance label inner, .reference _ _ =>
    List.nil_sublist _
  | .plain _, _ | .input _, _ | .computed _ _, _ => List.nil_sublist _

/-- The references that are followed are written in the template, in the same order. -/
theorem followed_sublist :
    (template : List Component) → (text : List Resolved) →
      (followed template text).Sublist (references template)
  | [], _ => List.nil_sublist _
  | _ :: _, [] => List.nil_sublist _
  | component :: rest, piece :: pieces => by
    rw [followed, references]
    exact (followedOne_sublist component piece).append (followed_sublist rest pieces)

end

/-- A component that is no block adds its reference to those that were collected before. -/
theorem refs_of_comes {source : Source} {s : Surroundings} {pass after : Pass} {c : Component}
    {piece : Resolved} {t t' : RollState} (hc : c.chance? = none)
    (h : Comes source s t pass c piece t' after) :
    after.refs = pass.refs ++ followedOne c piece := by
  cases h with
  | computed hrun => simp [followedOne, Pass.noteValue]
  | reference ref name => simp [followedOne, Pass.noteReference]
  | passedOver => cases hc
  | selected => cases hc
  | _ => simp [followedOne]

mutual

theorem resolveOne_refs {source : Source} {s : Surroundings} {chances next : Chances}
    {pass after : Pass} {piece : Resolved} {t t' : RollState} :
    (c : Component) →
      (resolveOne source s chances pass c).runFrom t = (.ok (piece, next, after), t') →
        after.refs = pass.refs ++ followedOne c piece
  | .plain _, h | .input _, h | .computed _ _, h | .reference _ _, h =>
    refs_of_comes rfl (comes_of_no_block rfl h).1
  | .percent chance label inner, h => by
    rcases resolveOne_percent_eq_ok_iff.1 h with ⟨u, text, -, hinner, rfl⟩ | ⟨-, rfl, rfl⟩
    · simpa only [followedOne, if_true] using resolveAll_refs inner hinner
    · simp [followedOne]

theorem resolveAll_refs {source : Source} {s : Surroundings} {chances : Chances}
    {pass after : Pass} {text : List Resolved} {t t' : RollState} :
    (template : List Component) →
      (resolveAll source s chances pass template).runFrom t = (.ok (text, after), t') →
        after.refs = pass.refs ++ followed template text
  | [], h => by
    obtain ⟨rfl, rfl, rfl⟩ := resolveAll_nil_eq_ok_iff.1 h
    simp [followed]
  | component :: rest, h => by
    obtain ⟨piece, next, mid, u, pieces, hfirst, hrest, rfl⟩ := resolveAll_cons_eq_ok_iff.1 h
    rw [resolveAll_refs rest hrest, resolveOne_refs component hfirst, followed, List.append_assoc]

end

/-- The references that resolving a template collects are those that are followed. -/
theorem refs_of_resolve {source : Source} {s : Surroundings} {store : Bindings Text}
    {template : List Component} {found : Resolution} {t t' : RollState}
    (h : (resolve source s store template).runFrom t = (.ok found, t')) :
    found.refs = followed template found.text := by
  obtain ⟨⟨text, pass⟩, _, hall, h⟩ := runFrom_bind_eq_ok_iff.1 h
  obtain ⟨rfl, _⟩ := runFrom_pure_eq_ok_iff.1 h
  exact resolveAll_refs template hall

end RandomTables.Template
