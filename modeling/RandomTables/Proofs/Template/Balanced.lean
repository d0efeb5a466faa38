import RandomTables.Proofs.Text.Stretch
import RandomTables.Template.Marker

/-!
# Texts in which every marker ends

The end of a marker is found by a scan that keeps track of the markers open inside of it, while what
stands between the brackets is read afterwards. A text is balanced if the scan passes over it and
goes on behind it as if it had not been there, whatever markers are open. Plain characters and
hidden ones are balanced, and so is what stands between brackets again; so the scan stops where it
should, no matter how deep markers stand inside of one another.
-/
namespace RandomTables.Template
variable {s t : Text}

/-- `s` between single brackets. -/
def single (s : Text) : Text := .char '[' :: (s ++ [.char ']'])

/-- `s` between double brackets. -/
def double (s : Text) : Text := .char '[' :: .char '[' :: (s ++ [.char ']', .char ']'])

/-- The character means nothing in a marker. -/
def IsUnmarked (c : CodePoint) : Prop :=
  c ≠ .char '\n' ∧ c ≠ .char '\\' ∧ c ≠ .char '[' ∧ c ≠ .char ']'

instance (c : CodePoint) : Decidable (IsUnmarked c) := inferInstanceAs (Decidable (_ ∧ _))

/-- Digit signs mean nothing in a marker. -/
theorem isUnmarked_of_isDigitSign {c : CodePoint} (hc : Text.isDigitSign c) : IsUnmarked c :=
  ⟨Text.ne_of_isDigitSign hc (by decide +kernel), Text.ne_of_isDigitSign hc (by decide +kernel),
    Text.ne_of_isDigitSign hc (by decide +kernel), Text.ne_of_isDigitSign hc (by decide +kernel)⟩

/-- No reference starts with a digit sign. -/
theorem looksLikeReference_of_isDigitSign {c : CodePoint} (hc : Text.isDigitSign c) (s : Text) :
    looksLikeReference (c :: s) = false := by
  refine looksLikeReference_eq_false ?_
  rintro _ ⟨⟩
  exact ⟨Text.ne_of_isDigitSign hc (by decide +kernel),
    Text.ne_of_isDigitSign hc (by decide +kernel), Text.ne_of_isDigitSign hc (by decide +kernel)⟩

/-- The end of every marker is looked for behind the text. -/
def Balanced (s : Text) : Prop :=
  ∀ (double : Bool) (around : List Bool) (rest : Text),
    takeBody double around (s ++ rest) =
      (takeBody double around rest).map fun p => (s ++ p.1, p.2)

namespace Balanced

theorem nil : Balanced [] := by
  intro double around rest
  simp

theorem append (hs : Balanced s) (ht : Balanced t) : Balanced (s ++ t) := by
  intro double around rest
  rw [List.append_assoc, hs, ht, Option.map_map]
  simp only [Function.comp_def, List.append_assoc]

theorem unmarked {c : CodePoint} (h : IsUnmarked c) : Balanced [c] := by
  intro double around rest
  obtain ⟨hnewline, hbackslash, hopen, hclose⟩ := h
  rw [List.singleton_append, takeBody]
  · rfl
  all_goals simp [hnewline, hbackslash, hopen, hclose]

/-- A backslash hides the character after it. -/
theorem hidden (c : CodePoint) : Balanced [.char '\\', c] := by
  intro double around rest
  simp only [List.cons_append, List.nil_append, takeBody]

theorem of_unmarked (h : ∀ c ∈ s, IsUnmarked c) : Balanced s := by
  induction s with
  | nil => exact .nil
  | cons c s ih =>
    have hrest := ih fun d hd => h d (List.mem_cons_of_mem c hd)
    exact (unmarked (h c (List.mem_cons_self ..))).append hrest

end Balanced

/-- A single marker ends at the next bracket, also if more brackets follow. -/
theorem takeBody_close (around : List Bool) (rest : Text) :
    takeBody false around (.char ']' :: rest) =
      match around with
      | [] => some ([], rest)
      | double :: around => (takeBody double around rest).map fun p => (.char ']' :: p.1, p.2) := by
  cases rest with
  | nil => rfl
  | cons c rest =>
    by_cases hc : c = .char ']'
    · subst hc
      rfl
    · cases around with
      | nil | cons =>
        rw [takeBody]
        · rfl
        all_goals simp [hc]

theorem takeBody_open (double : Bool) (around : List Bool) (h : ∀ c ∈ s.head?, c ≠ .char '[')
    (rest : Text) :
    takeBody double around (.char '[' :: (s ++ .char ']' :: rest)) =
      (takeBody false (double :: around) (s ++ .char ']' :: rest)).map
        fun p => (.char '[' :: p.1, p.2) := by
  cases s with
  | nil =>
    rw [List.nil_append, takeBody]
    simp
  | cons c s =>
    rw [List.cons_append, takeBody]
    simpa using h

namespace Balanced

/-- A balanced text is balanced between single brackets, unless its own start would be taken for a
part of the opening. -/
theorem single (h : Balanced s) (hstart : ∀ c ∈ s.head?, c ≠ .char '[') :
    Balanced (single s) := by
  intro double around rest
  rw [Template.single, List.cons_append, List.append_assoc, List.singleton_append,
    takeBody_open double around hstart, h, takeBody_close, Option.map_map, Option.map_map]
  simp [Function.comp_def]

theorem double (h : Balanced s) : Balanced (double s) := by
  intro double around rest
  simp only [Template.double, List.cons_append, List.append_assoc, List.nil_append, takeBody]
  rw [h]
  simp only [takeBody, if_true, Option.map_map]
  simp [Function.comp_def]

end Balanced

/-- A single marker around a balanced text holds this text. -/
theorem takeBody_single (h : Balanced s) (after : Text) :
    takeBody false [] (s ++ .char ']' :: after) = some (s, after) := by
  rw [h, takeBody_close, Option.map_some, List.append_nil]

/-- A double marker around a balanced text holds this text. -/
theorem takeBody_double (h : Balanced s) (after : Text) :
    takeBody true [] (s ++ .char ']' :: .char ']' :: after) = some (s, after) := by
  rw [h, takeBody, if_pos rfl, Option.map_some, List.append_nil]

end RandomTables.Template
