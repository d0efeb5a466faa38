import RandomTables.Proofs.Fallible
import RandomTables.Proofs.Template.Balanced
import RandomTables.Template.Reader

/-!
# What a template starts with

Both the scan for the end of a marker and the reader of templates look at the start of a text and do
one of a few things: they stop, they pass over a character or a hidden one, or they come to
brackets. There is one equation for each, and one induction that goes through them, so that what is
said of all templates is said by going through these starts. Single and double markers differ in
their brackets and in how the text between them is read, and in nothing else.
-/
namespace RandomTables.Template

def opening : Bool → Text
  | true => [.char '[', .char '[']
  | false => [.char '[']

def closing : Bool → Text
  | true => [.char ']', .char ']']
  | false => [.char ']']

/-- How many brackets there are on each side of a marker. -/
def width : Bool → Nat
  | true => 2
  | false => 1

@[simp] theorem length_opening (double : Bool) : (opening double).length = width double := by
  cases double <;> rfl

@[simp] theorem length_closing (double : Bool) : (closing double).length = width double := by
  cases double <;> rfl

theorem width_pos (double : Bool) : 0 < width double := by
  cases double <;> decide

/-- The brackets in front of the text are all that the marker opens with. -/
def OpensWith (double : Bool) (rest : Text) : Prop :=
  double = false → ∀ c ∈ rest.head?, c ≠ .char '['

theorem OpensWith.of_double (rest : Text) : OpensWith true rest := fun h => Bool.noConfusion h

/-! ## Inside of a marker -/

/-- A marker cannot end in the text: it is over, its line is over, or it hides nothing. -/
def Breaks (s : Text) : Prop := s = [] ∨ s.head? = some (.char '\n') ∨ s = [.char '\\']

/-- The character means nothing in front of this text, inside of a marker. -/
structure Passes (double : Bool) (c : CodePoint) (rest : Text) : Prop where
  ne_newline : c ≠ .char '\n'
  ne_backslash : c ≠ .char '\\'
  ne_open : c ≠ .char '['
  alone : c = .char ']' → double = true ∧ ∀ d ∈ rest.head?, d ≠ .char ']'

section TakeBody
variable {double inner : Bool} {around : List Bool} {s rest : Text} {c : CodePoint}

theorem takeBody_breaks (h : Breaks s) : takeBody double around s = none := by
  rcases h with rfl | hnewline | rfl
  · rfl
  · cases s with
    | nil => rfl
    | cons c rest =>
      obtain rfl := Option.some.inj hnewline
      rfl
  · rfl

theorem takeBody_hidden (c : CodePoint) (rest : Text) :
    takeBody double around (.char '\\' :: c :: rest) =
      (takeBody double around rest).map fun p => (.char '\\' :: c :: p.1, p.2) := by
  rw [takeBody]

theorem takeBody_passes (h : Passes double c rest) :
    takeBody double around (c :: rest) =
      (takeBody double around rest).map fun p => (c :: p.1, p.2) := by
  obtain ⟨hnewline, hbackslash, hopen, halone⟩ := h
  by_cases hclose : c = .char ']'
  · obtain rfl := hclose
    obtain ⟨rfl, hrest⟩ := halone rfl
    have hrest : ∀ more, rest ≠ .char ']' :: more := by
      rintro more rfl
      exact hrest _ rfl rfl
    cases around with
    | nil | cons =>
      rw [takeBody, if_pos rfl]
      exact hrest
  · rw [takeBody] <;> simp [hnewline, hbackslash, hopen, hclose]

theorem takeBody_opens (h : OpensWith inner rest) :
    takeBody double around (opening inner ++ rest) =
      (takeBody inner (double :: around) rest).map fun p => (opening inner ++ p.1, p.2) := by
  cases inner with
  | true => rfl
  | false =>
    rw [opening, List.singleton_append, takeBody]
    · rfl
    · rintro more rfl
      exact h rfl _ rfl rfl

theorem takeBody_closes (double : Bool) (rest : Text) :
    takeBody double [] (closing double ++ rest) = some ([], rest) := by
  cases double with
  | true => rfl
  | false => exact takeBody_close [] rest

theorem takeBody_returns (double outer : Bool) (around : List Bool) (rest : Text) :
    takeBody double (outer :: around) (closing double ++ rest) =
      (takeBody outer around rest).map fun p => (closing double ++ p.1, p.2) := by
  cases double with
  | true => rfl
  | false => exact takeBody_close (outer :: around) rest

end TakeBody

/-- What holds along the scan for the end of a marker. -/
theorem takeBody_induction {motive : Bool → List Bool → Text → Prop}
    (breaks : ∀ {double around s}, Breaks s → motive double around s)
    (hidden : ∀ {double around c rest}, motive double around rest →
      motive double around (.char '\\' :: c :: rest))
    (passes : ∀ {double around c rest}, Passes double c rest → motive double around rest →
      motive double around (c :: rest))
    (opens : ∀ {double inner around rest}, OpensWith inner rest →
      motive inner (double :: around) rest → motive double around (opening inner ++ rest))
    (closes : ∀ {double rest}, motive double [] (closing double ++ rest))
    (returns : ∀ {double outer around rest}, motive outer around rest →
      motive double (outer :: around) (closing double ++ rest))
    (double : Bool) (around : List Bool) (s : Text) : motive double around s := by
  fun_induction takeBody double around s with
  | case1 => exact breaks (.inl rfl)
  | case2 => exact breaks (.inr (.inl rfl))
  | case3 double around c rest ih => exact hidden ih
  | case4 => exact breaks (.inr (.inr rfl))
  | case5 double around rest ih => exact @opens double true around rest (.of_double rest) ih
  | case6 double around rest hrest ih =>
    refine @opens double false around rest (fun _ c hc => ?_) ih
    rintro rfl
    obtain ⟨more, rfl⟩ := List.head?_eq_some_iff.1 hc
    exact hrest _ rfl
  | case7 => exact @closes true _
  | case8 outer around rest ih => exact @returns true _ _ _ ih
  | case9 double rest hsingle =>
    obtain rfl := Bool.eq_false_iff.2 hsingle
    exact @closes false _
  | case10 double rest hsingle outer around ih =>
    obtain rfl := Bool.eq_false_iff.2 hsingle
    exact @returns false _ _ _ ih
  | case11 around rest hrest ih =>
    refine passes ⟨by decide, by decide, by decide, fun _ => ⟨rfl, fun d hd => ?_⟩⟩ ih
    rintro rfl
    obtain ⟨more, rfl⟩ := List.head?_eq_some_iff.1 hd
    exact hrest _ rfl
  | case12 double rest hrest hsingle =>
    obtain rfl := Bool.eq_false_iff.2 hsingle
    exact @closes false _
  | case13 double rest hrest hsingle outer around ih =>
    obtain rfl := Bool.eq_false_iff.2 hsingle
    exact @returns false _ _ _ ih
  | case14 double around c rest hnewline hhides hhidesNone _ hopen _ hclose ih =>
    refine passes ⟨hnewline, fun hbackslash => ?_, hopen, fun h => absurd h hclose⟩ ih
    cases rest with
    | nil => exact hhidesNone hbackslash rfl
    | cons d rest => exact hhides d rest hbackslash rfl

/-- Whether the outermost open marker is double. -/
def outermost (double : Bool) : List Bool → Bool
  | [] => double
  | outer :: around => outermost outer around

/-- The outermost open marker ends where `body` does, whatever comes after its brackets. -/
structure EndsBehind (double : Bool) (around : List Bool) (s body after : Text) : Prop where
  eq_append : s = body ++ closing (outermost double around) ++ after
  whatever : ∀ other, takeBody double around (body ++ closing (outermost double around) ++ other) =
    some (body, other)

theorem Passes.of_head {double : Bool} {c : CodePoint} {s t : Text} (h : Passes double c s)
    (hhead : t.head? = s.head?) : Passes double c t :=
  ⟨h.ne_newline, h.ne_backslash, h.ne_open, hhead ▸ h.alone⟩

theorem OpensWith.of_head {double : Bool} {s t : Text} (h : OpensWith double s)
    (hhead : t.head? = s.head?) : OpensWith double t := by
  rw [OpensWith, hhead]
  exact h

/-- The marker starts alike, whatever comes after its brackets. -/
theorem EndsBehind.head? {double : Bool} {around : List Bool} {s body after : Text}
    (h : EndsBehind double around s body after) (other : Text) :
    (body ++ closing (outermost double around) ++ other).head? = s.head? := by
  rw [h.eq_append]
  cases body with
  | nil => cases outermost double around <;> rfl
  | cons => rfl

/-- What the scan passes over in front of a text belongs to the marker's text. -/
theorem EndsBehind.step {double inner : Bool} {around within_ : List Bool} (start : Text)
    {rest : Text}
    (hstep : ∀ t : Text, t.head? = rest.head? → takeBody double around (start ++ t) =
      (takeBody inner within_ t).map fun p => (start ++ p.1, p.2))
    (hout : outermost inner within_ = outermost double around)
    (ih : ∀ {body after}, takeBody inner within_ rest = some (body, after) →
      EndsBehind inner within_ rest body after) {body after : Text}
    (h : takeBody double around (start ++ rest) = some (body, after)) :
    EndsBehind double around (start ++ rest) body after := by
  rw [hstep rest rfl] at h
  obtain ⟨⟨more, _⟩, hmore, hparts⟩ := Option.map_eq_some_iff.1 h
  obtain ⟨rfl, rfl⟩ := Prod.mk.inj hparts
  have hhead := (ih hmore).head?
  obtain ⟨hrest, hwhatever⟩ := ih hmore
  rw [hout] at hrest hwhatever hhead
  refine ⟨by rw [hrest]; simp only [List.append_assoc], fun other => ?_⟩
  rw [List.append_assoc, List.append_assoc, ← List.append_assoc more, hstep _ (hhead other),
    hwhatever]
  rfl

theorem takeBody_endsBehind {double : Bool} {around : List Bool} {s body after : Text}
    (h : takeBody double around s = some (body, after)) :
    EndsBehind double around s body after := by
  induction double, around, s using takeBody_induction generalizing body after with
  | breaks hbreaks =>
    rw [takeBody_breaks hbreaks] at h
    cases h
  | @hidden double around c rest ih =>
    exact .step [.char '\\', c] (fun t _ => takeBody_hidden c t) rfl ih h
  | @passes double around c rest hpasses ih =>
    exact .step [c] (fun t ht => takeBody_passes (hpasses.of_head ht)) rfl ih h
  | opens hopens ih =>
    exact .step (opening _) (fun t ht => takeBody_opens (hopens.of_head ht)) rfl ih h
  | closes =>
    rw [takeBody_closes] at h
    obtain ⟨rfl, rfl⟩ := Prod.mk.inj (Option.some.inj h)
    exact ⟨rfl, takeBody_closes _⟩
  | @returns double outer around rest ih =>
    exact .step (closing double) (fun t _ => takeBody_returns double outer around t) rfl ih h

/-! ## Templates -/

/-- The character stands for itself in front of this text. -/
structure StandsPlain (c : CodePoint) (rest : Text) : Prop where
  ne_newline : c ≠ .char '\n'
  ne_open : c ≠ .char '['
  hides_nothing : c = .char '\\' → ∀ d ∈ rest.head?, isEscapable d = false

/-- What the reader does at the start of a text. -/
inductive Start : Text → Prop
  | ended {s : Text} (h : ∀ c ∈ s.head?, c = .char '\n') : Start s
  | hidden {c : CodePoint} (h : isEscapable c) (rest : Text) : Start (.char '\\' :: c :: rest)
  | plain {c : CodePoint} {rest : Text} (h : StandsPlain c rest) : Start (c :: rest)
  | marker (double : Bool) {rest : Text} (h : OpensWith double rest) :
    Start (opening double ++ rest)

/-- There is nothing else that a text can start with. -/
theorem start (s : Text) : Start s := by
  match s with
  | [] => exact .ended nofun
  | c :: rest =>
    by_cases hnewline : c = .char '\n'
    · exact .ended (by rintro _ ⟨⟩; exact hnewline)
    by_cases hopen : c = .char '['
    · obtain rfl := hopen
      cases rest with
      | nil => exact .marker false fun _ => nofun
      | cons d rest =>
        by_cases hdouble : d = .char '['
        · obtain rfl := hdouble
          exact .marker true (.of_double _)
        · exact .marker false fun _ => by rintro _ ⟨⟩; exact hdouble
    by_cases hbackslash : c = .char '\\'
    · cases rest with
      | nil => exact .plain ⟨hnewline, hopen, fun _ => nofun⟩
      | cons d rest =>
        cases hd : isEscapable d with
        | true =>
          obtain rfl := hbackslash
          exact .hidden hd rest
        | false => exact .plain ⟨hnewline, hopen, fun _ => by rintro _ ⟨⟩; exact hd⟩
    · exact .plain ⟨hnewline, hopen, fun h => absurd h hbackslash⟩

/-- A double marker is a block only if a chance stands at its start. -/
theorem chanceHead?_of_doubleMarker {position : Int} {body : Text} {head : ChanceHead}
    (h : doubleMarker position body = .ok (.block head)) : chanceHead? body = some head := by
  unfold doubleMarker at h
  dsimp only at h
  split at h
  · obtain ⟨c, _, hc⟩ := map_eq_ok_iff.1 h
    cases hc
  · split at h
    · obtain ⟨c, _, hc⟩ := map_eq_ok_iff.1 h
      cases hc
    · split at h
      · cases h
      · next head' hhead =>
        split at h
        · cases h
        · obtain rfl := Marker.block.inj (Except.ok.inj h)
          exact hhead

/-- The component in a marker whose text starts at `position`. -/
def markerAt (position : Int) : Bool → Text → Except TemplateError Component
  | true, body => doubleMarker position body >>= fun
    | .component c => .ok c
    | .block head =>
      (components (position + head.length) [] (body.drop head.length)).map
        (.percent head.chance head.label)
  | false, body => (placeholder position body).map .input

section Components
variable {position : Int} {plain s rest : Text} {c : CodePoint} {double : Bool}

theorem components_ended (h : ∀ c ∈ s.head?, c = .char '\n') :
    components position plain s = .ok (flush plain) := by
  cases s with
  | nil => rw [components]
  | cons c rest =>
    obtain rfl := h c rfl
    rw [components]

theorem components_hidden (h : isEscapable c) :
    components position plain (.char '\\' :: c :: rest) =
      components (position + 2) (c :: plain) rest := by
  rw [components, if_pos h]

theorem components_plain (h : StandsPlain c rest) :
    components position plain (c :: rest) = components (position + 1) (c :: plain) rest := by
  obtain ⟨hnewline, hopen, hhides⟩ := h
  by_cases hbackslash : c = .char '\\'
  · obtain rfl := hbackslash
    cases rest with
    | nil =>
      have hend : components (position + 1) (.char '\\' :: plain) [] =
          .ok (flush (.char '\\' :: plain)) := components_ended (by simp)
      rw [hend, components, hend]
      all_goals simp
    | cons d rest => rw [components, if_neg (by simpa using hhides rfl d rfl)]
  · rw [components] <;> simp [hnewline, hopen, hbackslash]

theorem components_marker (h : OpensWith double rest) :
    components position plain (opening double ++ rest) =
      match takeBody double [] rest with
      | none => .error (.malformed position (.openMarker double))
      | some (body, after) =>
        markerAt (position + width double) double body >>= fun c =>
          (components (position + body.length + 2 * width double) [] after).map
            fun more => flush plain ++ c :: more := by
  cases double with
  | true =>
    rw [opening, List.cons_append, List.singleton_append, components]
    split
    · next hnone => rw [hnone]
    · next body after hsome =>
      dsimp only
      simp only [hsome, markerAt, width, Int.cast_ofNat_Int]
      cases doubleMarker (position + 2) body with
      | error e => rfl
      | ok found =>
        cases found with
        | component c => rfl
        | block head =>
          dsimp only [bind, Except.bind]
          cases components (position + 2 + head.length) [] (body.drop head.length) with
          | error e => rfl
          | ok inner => rfl
  | false =>
    rw [opening, List.singleton_append, components]
    · split
      · next hnone => rw [hnone]
      · next body after hsome =>
        dsimp only
        simp only [hsome, markerAt, width, Int.cast_ofNat_Int]
        cases placeholder (position + 1) body with
        | error e => rfl
        | ok p => rfl
    · rintro more rfl
      exact h rfl _ rfl rfl

end Components

/-- What holds along the reading of a template. The text of a marker is read again from some place
on if it is a block. -/
theorem template_induction {motive : Text → Prop}
    (ended : ∀ {s}, (∀ c ∈ s.head?, c = .char '\n') → motive s)
    (hidden : ∀ {c rest}, isEscapable c → motive rest → motive (.char '\\' :: c :: rest))
    (plain : ∀ {c rest}, StandsPlain c rest → motive rest → motive (c :: rest))
    (unclosed : ∀ {double rest}, OpensWith double rest → takeBody double [] rest = none →
      motive (opening double ++ rest))
    (marker : ∀ {double rest body after}, OpensWith double rest →
      takeBody double [] rest = some (body, after) → (∀ n, motive (body.drop n)) → motive after →
      motive (opening double ++ rest))
    (s : Text) : motive s := by
  induction hlength : s.length using Nat.strongRecOn generalizing s with
  | _ length ih =>
    subst hlength
    cases start s with
    | ended h => exact ended h
    | hidden h rest => exact hidden h (ih _ (by simp only [List.length_cons]; omega) _ rfl)
    | plain h => exact plain h (ih _ (by simp) _ rfl)
    | @marker double rest h =>
      cases hbody : takeBody double [] rest with
      | none => exact unclosed h hbody
      | some found =>
        obtain ⟨body, after⟩ := found
        have hlength := takeBody_length hbody
        refine marker h hbody (fun n => ih _ ?_ _ rfl) (ih _ ?_ _ rfl)
        · rw [List.length_append, List.length_drop]
          omega
        · rw [List.length_append]
          omega

end RandomTables.Template
