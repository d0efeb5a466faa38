import Mathlib.Logic.Basic

/-!
# Steps that can fail

A chain of steps succeeds exactly if each of its steps does, and it fails where the first of them
does. The same holds of a step that is taken for every item of a list.
-/
namespace RandomTables

theorem bind_eq_ok_iff {ε α β : Type} {x : Except ε α} {f : α → Except ε β} {b : β} :
    x >>= f = .ok b ↔ ∃ a, x = .ok a ∧ f a = .ok b := by
  cases x with
  | error e =>
    constructor
    · intro h
      cases h
    · rintro ⟨a, h, _⟩
      cases h
  | ok a =>
    constructor
    · intro h
      exact ⟨a, rfl, h⟩
    · rintro ⟨a', h, hf⟩
      obtain rfl := Except.ok.inj h
      exact hf

theorem bind_eq_error_iff {ε α β : Type} {x : Except ε α} {f : α → Except ε β} {e : ε} :
    x >>= f = .error e ↔ x = .error e ∨ ∃ a, x = .ok a ∧ f a = .error e := by
  cases x with
  | error e' =>
    constructor
    · intro h
      obtain rfl := Except.error.inj h
      exact .inl rfl
    · rintro (h | ⟨a, h, _⟩)
      · obtain rfl := Except.error.inj h
        rfl
      · cases h
  | ok a =>
    constructor
    · intro h
      exact .inr ⟨a, rfl, h⟩
    · rintro (h | ⟨a', h, hf⟩)
      · cases h
      · obtain rfl := Except.ok.inj h
        exact hf

theorem map_eq_ok_iff {ε α β : Type} {x : Except ε α} {f : α → β} {b : β} :
    x.map f = .ok b ↔ ∃ a, x = .ok a ∧ f a = b := by
  cases x with
  | error e =>
    constructor
    · intro h
      cases h
    · rintro ⟨a, h, _⟩
      cases h
  | ok a =>
    constructor
    · intro h
      exact ⟨a, rfl, Except.ok.inj h⟩
    · rintro ⟨a', h, rfl⟩
      obtain rfl := Except.ok.inj h
      rfl

theorem map_eq_error_iff {ε α β : Type} {x : Except ε α} {f : α → β} {e : ε} :
    x.map f = .error e ↔ x = .error e := by
  cases x with
  | error e' =>
    constructor
    · intro h
      obtain rfl := Except.error.inj h
      rfl
    · intro h
      obtain rfl := Except.error.inj h
      rfl
  | ok a =>
    constructor
    · intro h
      cases h
    · intro h
      cases h

theorem mapError_eq_error_iff {ε ε' α : Type} {x : Except ε α} {f : ε → ε'} {e : ε'} :
    x.mapError f = .error e ↔ ∃ e', x = .error e' ∧ f e' = e := by
  cases x with
  | error e' =>
    constructor
    · intro h
      exact ⟨e', rfl, Except.error.inj h⟩
    · rintro ⟨e'', h, rfl⟩
      obtain rfl := Except.error.inj h
      rfl
  | ok a =>
    constructor
    · intro h
      cases h
    · rintro ⟨e', h, _⟩
      cases h

theorem mapError_eq_ok_iff {ε ε' α : Type} {x : Except ε α} {f : ε → ε'} {a : α} :
    x.mapError f = .ok a ↔ x = .ok a := by
  cases x with
  | error e => exact iff_of_false nofun nofun
  | ok b =>
    constructor <;>
    · intro h
      obtain rfl := Except.ok.inj h
      rfl

/-- Where going through a list fails, it fails at one of the items. -/
theorem exists_of_mapM_eq_error {ε α β : Type} {f : α → Except ε β} {items : List α} {e : ε}
    (h : items.mapM f = .error e) : ∃ item ∈ items, f item = .error e := by
  induction items with
  | nil => cases h
  | cons item items ih =>
    rw [List.mapM_cons] at h
    rcases bind_eq_error_iff.1 h with h | ⟨b, _, h⟩
    · exact ⟨item, List.mem_cons_self .., h⟩
    · rcases bind_eq_error_iff.1 h with h | ⟨bs, _, h⟩
      · obtain ⟨other, hother, hfail⟩ := ih h
        exact ⟨other, List.mem_cons_of_mem _ hother, hfail⟩
      · cases h

/-- All items are kept if the step keeps each of them. -/
theorem filterM_eq_ok {ε α : Type} {f : α → Except ε Bool} {l : List α}
    (h : ∀ x ∈ l, f x = .ok true) : l.filterM f = .ok l := by
  have haux : ∀ (l acc : List α), (∀ x ∈ l, f x = .ok true) →
      l.filterAuxM f acc = .ok (l.reverse ++ acc) := by
    intro l
    induction l with
    | nil => exact fun acc _ => rfl
    | cons x l ih =>
      intro acc h
      have hfirst := h x List.mem_cons_self
      have hrest := ih (x :: acc) fun y hy => h y (List.mem_cons_of_mem x hy)
      rw [List.filterAuxM, hfirst]
      rw [List.reverse_cons, List.append_assoc]
      exact hrest
  rw [List.filterM, haux l [] h]
  change Except.ok (l.reverse ++ []).reverse = _
  rw [List.append_nil, List.reverse_reverse]

end RandomTables
