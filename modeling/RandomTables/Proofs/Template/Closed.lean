import Mathlib.Tactic.SplitIfs
import RandomTables.Proofs.Fallible
import RandomTables.Proofs.Template.Starts
import RandomTables.Proofs.Text.Stretch

/-!
# Markers inside of markers

The scan for the end of a marker goes through the markers inside of it, so each of these has its own
end in the text that the scan finds. This text is read afterwards, from the first sign on or, in a
block, from behind its head, and none of the markers in it is found open. So a template is refused
for an open marker only if this one stands in no other.
-/
namespace RandomTables.Template

/-- The reading is not refused for a marker that stays open. -/
def Closed {α : Type} (reading : Except TemplateError α) : Prop :=
  ∀ position double, reading ≠ .error (.malformed position (.openMarker double))

namespace Closed
variable {α β : Type} {reading : Except TemplateError α}

theorem ok (a : α) : Closed (.ok a) := fun _ _ => nofun

theorem numeral (run : Text) : Closed (.error (.numeral run) : Except _ α) := fun _ _ => nofun

theorem fault {fault : TemplateFault} (position : Int)
    (h : ∀ double, fault ≠ .openMarker double := by nofun) :
    Closed (.error (.malformed position fault) : Except _ α) := by
  intro position' double hopen
  exact h double (TemplateError.malformed.inj (Except.error.inj hopen)).2

theorem map (h : Closed reading) (f : α → β) : Closed (reading.map f) :=
  fun position double hopen => h position double (map_eq_error_iff.1 hopen)

theorem bind {next : α → Except TemplateError β} (h : Closed reading)
    (hnext : ∀ a, reading = .ok a → Closed (next a)) : Closed (reading >>= next) := by
  intro position double hopen
  rcases bind_eq_error_iff.1 hopen with hopen | ⟨a, ha, hopen⟩
  · exact h position double hopen
  · exact hnext a ha position double hopen

end Closed

/-! ## Single components -/

theorem closed_referenceAt (position : Int) (body : Text) (name : Option Text) :
    Closed (referenceAt position body name) := by
  unfold referenceAt
  cases Reference.ofText body with
  | ok ref => exact .ok _
  | error fault => exact .fault _

theorem closed_applyModifier (position : Int) (key : Text) (p : Placeholder) (modifier : Text) :
    Closed (applyModifier position key p modifier) := by
  unfold applyModifier
  dsimp only
  cases indexModifier? (Text.trim modifier) with
  | some n => exact .ok _
  | none =>
    dsimp only
    split_ifs
    · exact .fault _
    · exact .ok _
    · exact .ok _
    · cases TextTransform.ofName? _ with
      | some t => exact .ok _
      | none => exact .fault _
    · exact .fault _

theorem closed_placeholder (position : Int) (body : Text) : Closed (placeholder position body) := by
  have hmodifiers : ∀ (key : Text) (modifiers : List Text) (p : Placeholder),
      Closed (modifiers.foldlM (applyModifier position key) p) := by
    intro key modifiers
    induction modifiers with
    | nil => exact fun p => .ok p
    | cons modifier rest ih =>
      intro p
      exact (closed_applyModifier position key p modifier).bind fun next _ => ih next
  unfold placeholder
  dsimp only
  split_ifs
  · exact .fault _
  · cases (Text.cut ':' body).2 with
    | none => exact .ok _
    | some modifiers => exact hmodifiers _ _ _

theorem closed_namedAt (position start : Int) (s : Text) : Closed (namedAt position start s) := by
  unfold namedAt
  dsimp only
  split_ifs
  · exact .fault _
  · cases (Text.cut ':' s).2 with
    | none => exact .fault _
    | some rest =>
      dsimp only
      split_ifs
      · exact closed_referenceAt _ _ _
      · split
        · exact .ok _
        · exact .fault _
        · exact .numeral _

theorem closed_doubleMarker (position : Int) (body : Text) :
    Closed (doubleMarker position body) := by
  unfold doubleMarker
  dsimp only
  split
  · exact (closed_namedAt _ _ _).map _
  · split_ifs
    · exact (closed_referenceAt _ _ _).map _
    · split
      · exact .fault _
      · split_ifs
        · exact .fault _
        · exact .ok _

/-! ## The head of a block -/

/-- The second text is what is left of the first behind signs that open and hide nothing. -/
def LeftOf (s rest : Text) : Prop :=
  ∃ front, s = front ++ rest ∧ ∀ c ∈ front, c ≠ .char '\\' ∧ c ≠ .char '['

namespace LeftOf
variable {s t rest : Text}

theorem trans (h : LeftOf s t) (hrest : LeftOf t rest) : LeftOf s rest := by
  obtain ⟨front, rfl, hfront⟩ := h
  obtain ⟨more, rfl, hmore⟩ := hrest
  refine ⟨front ++ more, (List.append_assoc ..).symm, fun c hc => ?_⟩
  rcases List.mem_append.1 hc with hc | hc
  · exact hfront c hc
  · exact hmore c hc

theorem cons {c : CodePoint} (h : c ≠ .char '\\' ∧ c ≠ .char '[') (s : Text) :
    LeftOf (c :: s) s :=
  ⟨[c], rfl, by simpa using h⟩

/-- Signs of a kind can be passed over if neither of the two is of this kind. -/
theorem dropWhile {p : CodePoint → Bool} (hbackslash : p (.char '\\') = false)
    (hopen : p (.char '[') = false) (s : Text) : LeftOf s (s.dropWhile p) := by
  refine ⟨s.takeWhile p, List.takeWhile_append_dropWhile.symm, fun c hc => ?_⟩
  have hp : p c := List.all_eq_true.1 List.all_takeWhile c hc
  constructor
  · rintro rfl
    rw [hbackslash] at hp
    cases hp
  · rintro rfl
    rw [hopen] at hp
    cases hp

theorem trimStart (s : Text) : LeftOf s (Text.trimStart s) := dropWhile rfl rfl s

end LeftOf

theorem leftOf_of_afterChanceSign? {s rest : Text} (h : afterChanceSign? s = some rest) :
    LeftOf s rest := by
  unfold afterChanceSign? at h
  split at h
  · obtain rfl := Option.some.inj h
    exact .cons (by decide) _
  · dsimp only at h
    obtain ⟨hword, hrest⟩ := Option.ite_none_right_eq_some.1 h
    obtain rfl := Option.some.inj hrest
    refine ⟨s.take 7, (List.take_append_drop ..).symm, fun c hc => ?_⟩
    have hletter : c.toLower ∈ Text.ofString "percent" := by
      rw [Bool.and_eq_true, decide_eq_true_eq] at hword
      rw [← hword.1]
      exact List.mem_map_of_mem hc
    constructor
    · rintro rfl
      exact absurd hletter (by decide)
    · rintro rfl
      exact absurd hletter (by decide)

/-- Nothing is opened or hidden in the head of a block. -/
theorem leftOf_of_chanceHead? {body : Text} {head : ChanceHead}
    (h : chanceHead? body = some head) : LeftOf body (body.drop head.length) := by
  unfold chanceHead? at h
  simp only [Option.bind_eq_bind, Option.bind_eq_some_iff, Option.some.injEq] at h
  obtain ⟨chance, _, rest, hrest, rfl⟩ := h
  have hsign : LeftOf body rest :=
    (LeftOf.trimStart body).trans <|
      (LeftOf.dropWhile (by decide +kernel) (by decide +kernel) _).trans <|
        (LeftOf.trimStart _).trans (leftOf_of_afterChanceSign? hrest)
  have hleft : ∀ {left : Text}, LeftOf body left →
      LeftOf body (body.drop (body.length - left.length)) := by
    rintro left ⟨front, rfl, hfront⟩
    refine ⟨front, ?_, hfront⟩
    rw [List.length_append, Nat.add_sub_cancel, List.drop_left]
  apply hleft
  cases rest with
  | nil => exact hsign
  | cons c more =>
    dsimp only
    split_ifs with hblank
    · refine hsign.trans (.cons ⟨?_, ?_⟩ more)
      · rintro rfl
        exact absurd hblank (by decide)
      · rintro rfl
        exact absurd hblank (by decide)
    · exact hsign

/-! ## Texts of markers -/

/-- The scan goes on behind a marker as if the marker had not been there. -/
theorem takeBody_nested (double : Bool) (around : List Bool) (outer : Bool) (beyond : List Bool)
    (s : Text) :
    takeBody double (around ++ outer :: beyond) s =
      (takeBody double around s).bind fun p => (takeBody outer beyond p.2).map fun q =>
        (p.1 ++ closing (outermost double around) ++ q.1, q.2) := by
  induction double, around, s using takeBody_induction with
  | breaks h => rw [takeBody_breaks h, takeBody_breaks h, Option.bind_none]
  | hidden ih =>
    rw [takeBody_hidden, takeBody_hidden, ih, Option.map_bind, Option.bind_map]
    simp only [Function.comp_def, Option.map_map, List.cons_append]
  | passes h ih =>
    rw [takeBody_passes h, takeBody_passes h, ih, Option.map_bind, Option.bind_map]
    simp only [Function.comp_def, Option.map_map, List.cons_append]
  | opens h ih =>
    rw [takeBody_opens h, takeBody_opens h, ← List.cons_append, ih, Option.map_bind,
      Option.bind_map]
    simp only [Function.comp_def, Option.map_map, List.append_assoc, outermost]
  | closes =>
    rw [List.nil_append, takeBody_returns, takeBody_closes]
    rfl
  | returns ih =>
    rw [List.cons_append, takeBody_returns, takeBody_returns, ih, Option.map_bind, Option.bind_map]
    simp only [Function.comp_def, Option.map_map, List.append_assoc, outermost]

/-- The text is that of a double marker: the scan for its end finds it at the end of the text. -/
def FitsMarker (s : Text) : Prop := takeBody true [] (s ++ closing true) = some (s, [])

theorem fitsMarker_of_takeBody {s body after : Text} (h : takeBody true [] s = some (body, after)) :
    FitsMarker body := by
  have hwhatever := (takeBody_endsBehind h).whatever []
  rwa [List.append_nil] at hwhatever

namespace FitsMarker
variable {double : Bool} {c : CodePoint} {s rest : Text}

theorem hidden (h : FitsMarker (.char '\\' :: c :: rest)) : FitsMarker rest := by
  rw [FitsMarker, List.cons_append, List.cons_append, takeBody_hidden] at h
  obtain ⟨⟨body, after⟩, hbody, hparts⟩ := Option.map_eq_some_iff.1 h
  obtain ⟨hparts, rfl⟩ := Prod.mk.inj hparts
  obtain ⟨-, hparts⟩ := List.cons.inj hparts
  obtain ⟨-, rfl⟩ := List.cons.inj hparts
  exact hbody

theorem tail (h : FitsMarker (c :: rest)) (hbackslash : c ≠ .char '\\') (hopen : c ≠ .char '[') :
    FitsMarker rest := by
  have hnewline : c ≠ .char '\n' := by
    rintro rfl
    rw [FitsMarker, takeBody_breaks (.inr (.inl rfl))] at h
    cases h
  -- A bracket that closes would end the marker in front of the text's end.
  have halone : c = .char ']' →
      true = true ∧ ∀ d ∈ (rest ++ closing true).head?, d ≠ .char ']' := by
    rintro rfl
    refine ⟨rfl, ?_⟩
    rintro d hd rfl
    obtain ⟨more, hmore⟩ := List.head?_eq_some_iff.1 hd
    have hcloses := takeBody_closes true more
    rw [FitsMarker, List.cons_append, hmore] at h
    rw [closing, List.cons_append, List.cons_append, List.nil_append, h] at hcloses
    cases (Prod.mk.inj (Option.some.inj hcloses)).1
  rw [FitsMarker, List.cons_append, takeBody_passes ⟨hnewline, hbackslash, hopen, halone⟩] at h
  obtain ⟨⟨body, after⟩, hbody, hparts⟩ := Option.map_eq_some_iff.1 h
  obtain ⟨hparts, rfl⟩ := Prod.mk.inj hparts
  obtain ⟨-, rfl⟩ := List.cons.inj hparts
  exact hbody

theorem left (h : FitsMarker s) (hleft : LeftOf s rest) : FitsMarker rest := by
  obtain ⟨front, rfl, hfront⟩ := hleft
  induction front with
  | nil => exact h
  | cons c front ih =>
    obtain ⟨hbackslash, hopen⟩ := hfront c List.mem_cons_self
    exact ih (fun d hd => hfront d (List.mem_cons_of_mem c hd)) (h.tail hbackslash hopen)

/-- A character that is not hidden can stand in front, unless it ends the line. -/
theorem cons_of_not_isEscapable (h : FitsMarker rest) (hc : isEscapable c = false) :
    FitsMarker (c :: rest) ∨ (c :: rest).head? = some (.char '\n') := by
  by_cases hnewline : c = .char '\n'
  · exact .inr (congrArg some hnewline)
  · simp only [isEscapable, Bool.or_eq_false_iff, beq_eq_false_iff_ne] at hc
    obtain ⟨⟨hopen, hclose⟩, hbackslash⟩ := hc
    rw [FitsMarker, List.cons_append,
      takeBody_passes ⟨hnewline, hbackslash, hopen, fun h => absurd h hclose⟩, h]
    exact .inl rfl

/-- A marker in the text of a marker ends there, and what follows it is such a text again. -/
theorem marker (h : FitsMarker (opening double ++ rest)) (hopens : OpensWith double rest) :
    ∃ body after, takeBody double [] rest = some (body, after) ∧ FitsMarker after := by
  have hopens' : OpensWith double (rest ++ closing true) := by
    rintro rfl c hc
    cases rest with
    | nil =>
      obtain rfl := Option.some.inj hc
      decide
    | cons d rest => exact hopens rfl c hc
  rw [FitsMarker, List.append_assoc, takeBody_opens hopens', ← List.nil_append [true],
    takeBody_nested, outermost] at h
  obtain ⟨⟨more, _⟩, hmore, hparts⟩ := Option.map_eq_some_iff.1 h
  obtain ⟨⟨body, behind⟩, hbody, hmore⟩ := Option.bind_eq_some_iff.1 hmore
  obtain ⟨⟨after, ends⟩, hafter, hsplit⟩ := Option.map_eq_some_iff.1 hmore
  obtain ⟨rfl, rfl⟩ := Prod.mk.inj hsplit
  obtain ⟨hrest, rfl⟩ := Prod.mk.inj hparts
  obtain rfl := List.append_cancel_left hrest
  have hbehind := (takeBody_endsBehind hafter).eq_append
  rw [List.append_nil, outermost] at hbehind
  subst hbehind
  exact ⟨body, after, (takeBody_endsBehind hbody).whatever after, hafter⟩

end FitsMarker

/-! ## Reading them -/

theorem closed_markerAt {double : Bool} {body : Text} (position : Int)
    (hinner : double = true → ∀ n, LeftOf body (body.drop n) →
      ∀ position, Closed (components position [] (body.drop n))) :
    Closed (markerAt position double body) := by
  cases double with
  | false => exact (closed_placeholder position body).map _
  | true =>
    refine (closed_doubleMarker position body).bind fun found hfound => ?_
    cases found with
    | component c => exact .ok c
    | block head =>
      have hleft := leftOf_of_chanceHead? (chanceHead?_of_doubleMarker hfound)
      exact (hinner rfl _ hleft _).map _

/-- No marker is found open in the text of a marker, nor where the line is over. -/
theorem closed_components {s : Text} (h : FitsMarker s ∨ s.head? = some (.char '\n'))
    (position : Int) (plain : Text) : Closed (components position plain s) := by
  induction s using template_induction generalizing position plain with
  | ended hended =>
    rw [components_ended hended]
    exact .ok _
  | hidden hc ih =>
    rw [components_hidden hc]
    rcases h with h | h
    · exact ih (.inl h.hidden) _ _
    · cases h
  | @plain c rest hplain ih =>
    rw [components_plain hplain]
    obtain ⟨hnewline, hopen, hhides⟩ := hplain
    rcases h with h | h
    · by_cases hbackslash : c = .char '\\'
      · -- The scan passes over what follows such a backslash, but the reader comes to it.
        subst hbackslash
        cases rest with
        | nil => cases h
        | cons d rest => exact ih (h.hidden.cons_of_not_isEscapable (hhides rfl d rfl)) _ _
      · exact ih (.inl (h.tail hbackslash hopen)) _ _
    · exact absurd (Option.some.inj h) hnewline
  | @unclosed double rest hopens hbody =>
    rcases h with h | h
    · obtain ⟨_, _, hfound, _⟩ := h.marker hopens
      rw [hbody] at hfound
      cases hfound
    · cases double <;> cases h
  | @marker double rest body after hopens hbody ihbody ihafter =>
    rw [components_marker hopens, hbody]
    rcases h with h | h
    · obtain ⟨_, _, hfound, hafter⟩ := h.marker hopens
      obtain ⟨rfl, rfl⟩ := Prod.mk.inj (Option.some.inj (hbody.symm.trans hfound))
      refine (closed_markerAt _ fun hdouble n hleft position => ?_).bind fun c _ =>
        (ihafter (.inl hafter) _ _).map _
      subst hdouble
      exact ihbody n (.inl ((fitsMarker_of_takeBody hbody).left hleft)) position []
    · cases double <;> cases h

/-- Whatever a marker is refused for that the scan has found, it is no open marker. -/
theorem closed_of_takeBody {double : Bool} {s body after : Text}
    (h : takeBody double [] s = some (body, after)) (position : Int) :
    Closed (markerAt position double body) := by
  refine closed_markerAt position fun hdouble n hleft position => ?_
  subst hdouble
  exact closed_components (.inl ((fitsMarker_of_takeBody h).left hleft)) position []

end RandomTables.Template
