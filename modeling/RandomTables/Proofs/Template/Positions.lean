import Mathlib.Tactic.SplitIfs
import RandomTables.Definition.RowReader
import RandomTables.Proofs.Fallible
import RandomTables.Proofs.Template.Starts
import RandomTables.Proofs.Text.Stretch

/-!
# Where the faults of a template are reported

Every part of a template is read with the position that it starts at in its source. What comes out
does not depend on this position, and a fault is reported as far behind it as the fault is inside of
the part. Readings of this kind can be put together one behind the other, as long as each is told
where its own part starts; so the positions of all faults point into the line, however deep the
markers stand in one another.
-/
namespace RandomTables

/-- The same error in a text that starts later in its source. -/
def TemplateError.moved (distance : Int) : TemplateError → TemplateError
  | malformed position fault => malformed (position + distance) fault
  | numeral run => numeral run

namespace Template

/-- A reading, told where its text starts, that comes to the same wherever this is, and reports its
faults in the first `length` characters from there on, or right behind them. -/
structure Placed {α : Type} (length : Nat) (reading : Int → Except TemplateError α) : Prop where
  moved : ∀ position, reading position = (reading 0).mapError (.moved position)
  bounded : ∀ {position fault}, reading 0 = .error (.malformed position fault) →
    0 ≤ position ∧ position ≤ length

namespace Placed
variable {α β : Type} {length more n : Nat} {reading other : Int → Except TemplateError α}

theorem congr (h : ∀ position, other position = reading position) (hread : Placed length reading) :
    Placed length other := by
  obtain rfl : other = reading := funext h
  exact hread

theorem ok (a : α) : Placed length fun _ => .ok a := ⟨fun _ => rfl, nofun⟩

theorem numeral (run : Text) : Placed length fun _ => (.error (.numeral run) : Except _ α) :=
  ⟨fun _ => rfl, nofun⟩

/-- A fault is reported some way behind the start. -/
theorem fault (place : Int → Int) (hplace : ∀ position, place position = position + n)
    (hn : n ≤ length) (fault : TemplateFault) :
    Placed length fun position => (.error (.malformed (place position) fault) : Except _ α) := by
  refine ⟨fun position => ?_, ?_⟩
  · simp only [hplace, Except.mapError, TemplateError.moved]
    rw [Int.zero_add, Int.add_comm]
  · rintro position fault' h
    obtain ⟨rfl, -⟩ := TemplateError.malformed.inj (Except.error.inj h)
    rw [hplace]
    omega

theorem fault_at_start (fault : TemplateFault) :
    Placed length fun position => (.error (.malformed position fault) : Except _ α) :=
  Placed.fault id (n := 0) (fun _ => by simp) (Nat.zero_le _) fault

theorem map (h : Placed length reading) (f : α → β) :
    Placed length fun position => (reading position).map f := by
  refine ⟨fun position => ?_, fun hfault => h.bounded (map_eq_error_iff.1 hfault)⟩
  rw [h.moved position]
  cases reading 0 <;> rfl

/-- A fault is reported as far behind the start as in a text that its source starts with. -/
theorem eq_malformed_iff (h : Placed length reading) {start position : Int}
    {fault : TemplateFault} :
    reading start = .error (.malformed (start + position) fault) ↔
      reading 0 = .error (.malformed position fault) := by
  rw [h.moved, mapError_eq_error_iff]
  constructor
  · rintro ⟨e, hread, he⟩
    cases e with
    | numeral run => cases he
    | malformed at_ fault' =>
      obtain ⟨hplace, rfl⟩ := TemplateError.malformed.inj he
      obtain rfl : at_ = position := by omega
      exact hread
  · intro hread
    exact ⟨_, hread, by rw [TemplateError.moved, Int.add_comm]⟩

theorem bounded_from (h : Placed length reading) {start position : Int} {fault : TemplateFault}
    (hfault : reading start = .error (.malformed position fault)) :
    start ≤ position ∧ position ≤ start + length := by
  obtain ⟨distance, rfl⟩ : ∃ distance, position = start + distance := ⟨position - start, by omega⟩
  have := h.bounded (h.eq_malformed_iff.1 hfault)
  omega

/-- A part that starts later is read by itself. -/
theorem later (h : Placed more reading) (place : Int → Int)
    (hplace : ∀ position, place position = position + n) (hn : n + more ≤ length) :
    Placed length fun position => reading (place position) := by
  refine ⟨fun position => ?_, fun {position fault} hfault => ?_⟩
  · rw [h.moved, h.moved (place 0), hplace, hplace]
    cases reading 0 with
    | ok a => rfl
    | error e =>
      cases e with
      | numeral run => rfl
      | malformed at_ fault =>
        simp only [Except.mapError, TemplateError.moved]
        congr 2
        omega
  · have := h.bounded_from hfault
    rw [hplace] at this
    omega

theorem mono (h : Placed more reading) (hle : more ≤ length) : Placed length reading :=
  h.later id (n := 0) (fun _ => by simp) (by omega)

/-- Two parts are read one after the other. -/
theorem bind {next : α → Int → Except TemplateError β} (h : Placed length reading)
    (hnext : ∀ a, reading 0 = .ok a → Placed length (next a)) :
    Placed length fun position => reading position >>= fun a => next a position := by
  cases hread : reading 0 with
  | error e =>
    have hall : ∀ position, reading position = .error (e.moved position) := fun position => by
      rw [h.moved, hread]
      rfl
    refine ⟨fun position => ?_, fun {position fault} hfault => ?_⟩
    · rw [hread, hall]
      rfl
    · rw [hread] at hfault
      obtain rfl := Except.error.inj hfault
      exact h.bounded hread
  | ok a =>
    have hall : ∀ position, reading position = .ok a := fun position => by
      rw [h.moved, hread]
      rfl
    refine (hnext a hread).congr fun position => ?_
    rw [hall]
    rfl

end Placed

/-! ## Markers -/

theorem placed_referenceAt {length n : Nat} (hn : n ≤ length) {place : Int → Int}
    (hplace : ∀ position, place position = position + n) (body : Text) (name : Option Text) :
    Placed length fun position => referenceAt (place position) body name := by
  unfold referenceAt
  cases Reference.ofText body with
  | ok ref => exact .ok _
  | error fault => exact .fault place hplace hn _

theorem placed_applyModifier (length : Nat) (key : Text) (p : Placeholder) (modifier : Text) :
    Placed length fun position => applyModifier position key p modifier := by
  unfold applyModifier
  dsimp only
  cases indexModifier? (Text.trim modifier) with
  | some n => exact .ok _
  | none =>
    dsimp only
    split_ifs
    · exact .fault_at_start _
    · exact .ok _
    · exact .ok _
    · cases TextTransform.ofName? _ with
      | some t => exact .ok _
      | none => exact .fault_at_start _
    · exact .fault_at_start _

theorem placed_placeholder (length : Nat) (body : Text) :
    Placed length fun position => placeholder position body := by
  have hmodifiers : ∀ (key : Text) (modifiers : List Text) (p : Placeholder),
      Placed length fun position => modifiers.foldlM (applyModifier position key) p := by
    intro key modifiers
    induction modifiers with
    | nil => exact fun p => .ok p
    | cons modifier rest ih =>
      intro p
      simp only [List.foldlM_cons]
      exact (placed_applyModifier length key p modifier).bind fun next _ => ih next
  unfold placeholder
  dsimp only
  split_ifs
  · exact .fault_at_start _
  · cases (Text.cut ':' body).2 with
    | none => exact .ok _
    | some modifiers => exact hmodifiers _ _ _

/-- Dice report their faults in their own text. -/
theorem placed_dice (s name : Text) :
    Placed s.length fun position => match Dice.Expr.read s position with
      | .ok expr => .ok (Component.computed name expr)
      | .error (.malformed at_ fault) => .error (.malformed at_ (.dice fault))
      | .error (.numeral run) => .error (.numeral run) := by
  unfold Dice.Expr.read
  cases Dice.Expr.scan s with
  | ok e => exact .ok _
  | error stop =>
    cases stop with
    | numeral run => exact .numeral run
    | fault cause unread => exact .fault _ (fun _ => rfl) (Nat.sub_le _ _) _

/-- What stands behind a name is read where it stands. -/
theorem placed_namedAt (n : Nat) (s : Text) :
    Placed (n + s.length) fun position => namedAt position (position + n) s := by
  unfold namedAt
  dsimp only
  split_ifs
  · exact .fault_at_start _
  · cases hcut : (Text.cut ':' s).2 with
    | none => exact .fault_at_start _
    | some rest =>
      have hle := (Text.suffix_of_cut hcut).length_le
      have hplace : ∀ position : Int, position + n + (s.length - rest.length : Nat) =
          position + (n + (s.length - rest.length) : Nat) := fun position => by omega
      dsimp only
      split_ifs
      · exact placed_referenceAt (by omega) hplace _ _
      · exact (placed_dice rest _).later _ hplace (by omega)

/-- The head of a block is a part of the marker's text. -/
theorem length_le_of_chanceHead? {body : Text} {head : ChanceHead}
    (h : chanceHead? body = some head) : head.length ≤ body.length := by
  unfold chanceHead? at h
  simp only [Option.bind_eq_bind, Option.bind_eq_some_iff, Option.some.injEq] at h
  obtain ⟨chance, _, rest, _, rfl⟩ := h
  exact Nat.sub_le _ _

/-- How a double marker is read that does not start with a name. -/
theorem doubleMarker_unnamed {body : Text} (h : ∀ s, Text.trim body ≠ .char '@' :: s)
    (position : Int) :
    doubleMarker position body =
      if looksLikeReference (Text.trim body) then
        (referenceAt (position + (body.length - (Text.trimStart body).length : Nat))
          (Text.trim body) none).map .component
      else
        match chanceHead? body with
        | none => .error (.malformed position (.unrecognised body))
        | some head =>
          if head.chance > 100 then .error (.malformed position (.chance head.chance))
          else .ok (.block head) := by
  rw [doubleMarker]
  split
  · next s hs => exact absurd hs (h s)
  · rfl

theorem placed_doubleMarker (body : Text) :
    Placed body.length fun position => doubleMarker position body := by
  by_cases hnamed : ∃ s, Text.trim body = .char '@' :: s
  · obtain ⟨s, hs⟩ := hnamed
    -- The name and what follows it stand behind the blanks and the sign in front of them.
    have hlength : body.length - (Text.trimStart body).length + 1 + s.length ≤ body.length := by
      have hlead := Text.length_trimStart_le body
      have hend := (Text.trimEnd_prefix (Text.trimStart body)).length_le
      rw [← Text.trim, hs, List.length_cons] at hend
      omega
    refine .congr (fun position => ?_) (((placed_namedAt _ s).mono hlength).map Marker.component)
    simp only [doubleMarker, hs, Int.natCast_add, Int.add_assoc]
    rfl
  · refine .congr (doubleMarker_unnamed (not_exists.1 hnamed)) ?_
    split_ifs
    · exact (placed_referenceAt (Nat.sub_le _ _) (fun _ => rfl) _ _).map _
    · cases chanceHead? body with
      | none => exact .fault_at_start _
      | some head =>
        dsimp only
        split_ifs
        · exact .fault_at_start _
        · exact .ok _

/-! ## Templates -/

/-- A marker reports its faults in its own text. -/
theorem placed_markerAt {double : Bool} {body : Text}
    (hinner : ∀ n, Placed (body.drop n).length fun position =>
      components position [] (body.drop n)) :
    Placed body.length fun position => markerAt position double body := by
  cases double with
  | false => exact (placed_placeholder _ body).map _
  | true =>
    refine (placed_doubleMarker body).bind fun found hfound => ?_
    cases found with
    | component c => exact .ok c
    | block head =>
      have hle := length_le_of_chanceHead? (chanceHead?_of_doubleMarker hfound)
      refine ((hinner head.length).later _ (fun _ => rfl) ?_).map _
      rw [List.length_drop]
      omega

/-- A template reports its faults in its own text, whatever plain text stands in front of it. -/
theorem placed_components (s : Text) :
    ∀ plain, Placed s.length fun position => components position plain s := by
  induction s using template_induction with
  | ended h => exact fun plain => .congr (fun _ => components_ended h) (.ok _)
  | hidden h ih =>
    refine fun plain => .congr (fun _ => components_hidden h) ((ih _).later _ (fun _ => rfl) ?_)
    simp only [List.length_cons]
    omega
  | plain h ih =>
    refine fun plain => .congr (fun _ => components_plain h) ((ih _).later _ (fun _ => rfl) ?_)
    simp only [List.length_cons]
    omega
  | @unclosed double rest h hbody =>
    refine fun plain => .congr (fun _ => components_marker h) ?_
    simp only [hbody]
    exact .fault_at_start _
  | @marker double rest body after h hbody ihbody ihafter =>
    intro plain
    have hlength := congrArg List.length (takeBody_endsBehind hbody).eq_append
    simp only [List.length_append, length_closing, outermost] at hlength
    refine .congr (fun _ => components_marker h) ?_
    simp only [hbody, List.length_append, length_opening]
    refine ((placed_markerAt fun n => ihbody n []).later _ (fun _ => rfl) ?_).bind fun c _ => ?_
    · omega
    · refine ((ihafter []).later _ (n := body.length + 2 * width double) (fun _ => ?_) ?_).map _
      · omega
      · omega

/-- A fault is reported as far behind the offset as it is reported without one. -/
theorem read_eq_malformed_iff {s : Text} {offset position : Int} {fault : TemplateFault} :
    read s offset = .error (.malformed (offset + position) fault) ↔
      read s 0 = .error (.malformed position fault) :=
  (placed_components s []).eq_malformed_iff

theorem read_eq_ok_iff {s : Text} {offset : Int} {cs : List Component} :
    read s offset = .ok cs ↔ read s 0 = .ok cs := by
  have hmoved : read s offset = (read s 0).mapError (.moved offset) :=
    (placed_components s []).moved offset
  rw [hmoved, mapError_eq_ok_iff]

end Template

/-! ## Rows -/

namespace Row

def bodyStart (line : Text) : Nat := ((head? line).map Head.bodyStart).getD 0

/-- The totals in front of the template, if there are any, are in order. -/
def HasRange (line : Text) : Prop := ∀ head ∈ head? line, head.low ≤ head.high

/-- A row has this fault at this position: its range is empty, or its template has the fault so far
behind the place where it starts. -/
inductive FaultAt (line : Text) : Int → TemplateFault → Prop
  | range {head : Head} (h : head? line = some head) (hempty : head.high < head.low) :
    FaultAt line head.numberStart (.emptyRange head.low head.high)
  | body (hrange : HasRange line) {position : Int} {fault : TemplateFault}
    (h : Template.read (line.drop (bodyStart line)) 0 = .error (.malformed position fault)) :
    FaultAt line (bodyStart line + position) fault

theorem starts_of_head? {line : Text} {head : Head} (h : head? line = some head) :
    head.numberStart ≤ line.length ∧ head.bodyStart ≤ line.length := by
  unfold head? at h
  simp only [Option.bind_eq_bind, Option.bind_eq_some_iff] at h
  obtain ⟨⟨low, rest⟩, _, h⟩ := h
  split at h
  · obtain ⟨⟨high, rest'⟩, _, h⟩ := Option.bind_eq_some_iff.1 h
    split at h
    · obtain rfl := Option.some.inj h
      exact ⟨Nat.sub_le _ _, Nat.sub_le _ _⟩
    · cases h
  · obtain ⟨⟨high, rest'⟩, _, h⟩ := Option.bind_eq_some_iff.1 h
    split at h
    · obtain rfl := Option.some.inj h
      exact ⟨Nat.sub_le _ _, Nat.sub_le _ _⟩
    · cases h

theorem bodyStart_le (line : Text) : bodyStart line ≤ line.length := by
  unfold bodyStart
  cases hhead : head? line with
  | none => exact Nat.zero_le _
  | some head => exact (starts_of_head? hhead).2

theorem FaultAt.bounded {line : Text} {position : Int} {fault : TemplateFault}
    (h : FaultAt line position fault) : 0 ≤ position ∧ position ≤ line.length := by
  cases h with
  | range hhead _ =>
    have := (starts_of_head? hhead).1
    omega
  | body _ hbody =>
    have hle := bodyStart_le line
    have hbounded := (Template.placed_components (line.drop (bodyStart line)) []).bounded hbody
    rw [List.length_drop] at hbounded
    omega

/-- The template of a row is read from where it starts in the line. -/
theorem read_of_hasRange {line : Text} (h : HasRange line) (number : Int) :
    ∃ range, read line number =
      (Template.read (line.drop (bodyStart line)) (bodyStart line)).map fun template =>
        ⟨template, range, line⟩ := by
  unfold read bodyStart
  cases hhead : head? line with
  | none => exact ⟨_, rfl⟩
  | some head =>
    have hle : (head.low : Int) ≤ head.high := Int.ofNat_le.2 (h head hhead)
    simp only [RowRange.ofBounds?, dif_pos hle]
    exact ⟨_, rfl⟩

theorem read_of_empty {line : Text} {head : Head} (h : head? line = some head)
    (hempty : head.high < head.low) (number : Int) :
    read line number = .error (.malformed head.numberStart (.emptyRange head.low head.high)) := by
  have hlt : ¬ (head.low : Int) ≤ head.high := by omega
  simp only [read, h, RowRange.ofBounds?, dif_neg hlt]

theorem read_eq_malformed_iff {line : Text} {number position : Int} {fault : TemplateFault} :
    read line number = .error (.malformed position fault) ↔ FaultAt line position fault := by
  constructor
  · intro h
    by_cases hrange : HasRange line
    · obtain ⟨range, hread⟩ := read_of_hasRange hrange number
      obtain ⟨start, rfl⟩ : ∃ start, position = bodyStart line + start :=
        ⟨position - bodyStart line, by omega⟩
      rw [hread, map_eq_error_iff, Template.read_eq_malformed_iff] at h
      exact .body hrange h
    · simp only [HasRange, not_forall, Nat.not_le, Option.mem_def] at hrange
      obtain ⟨head, hhead, hempty⟩ := hrange
      rw [read_of_empty hhead hempty] at h
      obtain ⟨rfl, rfl⟩ := TemplateError.malformed.inj (Except.error.inj h)
      exact .range hhead hempty
  · intro h
    cases h with
    | range hhead hempty => exact read_of_empty hhead hempty number
    | body hrange hbody =>
      obtain ⟨range, hread⟩ := read_of_hasRange hrange number
      rw [hread, map_eq_error_iff, Template.read_eq_malformed_iff]
      exact hbody

end Row

/-- A template that starts later in its source is read alike, and its faults are reported that much
later; a fault of a row is that of its range, or that of its template where this one starts. Each of
them points into the text. -/
theorem faults_point_into_line (s : Text) (offset number : Int) :
    (∀ cs, Template.read s offset = .ok cs ↔ Template.read s 0 = .ok cs) ∧
    (∀ position fault, Template.read s 0 = .error (.malformed position fault) →
      0 ≤ position ∧ position ≤ s.length ∧
        Template.read s offset = .error (.malformed (position + offset) fault)) ∧
    (∀ position fault, Row.read s number = .error (.malformed position fault) →
      0 ≤ position ∧ position ≤ s.length) ∧
    (∀ position fault, Row.read s number = .error (.malformed position fault) ↔
      Row.FaultAt s position fault) := by
  refine ⟨fun cs => Template.read_eq_ok_iff, fun position fault h => ?_, fun position fault h => ?_,
    fun position fault => Row.read_eq_malformed_iff⟩
  · obtain ⟨hfirst, hlast⟩ := (Template.placed_components s []).bounded h
    exact ⟨hfirst, hlast, by rw [Int.add_comm]; exact Template.read_eq_malformed_iff.2 h⟩
  · exact (Row.read_eq_malformed_iff.1 h).bounded

/-- A block with a placeholder in it that has a number for its name. -/
def namelessInput : Text := "[[5% [9]]]"

theorem Template.read_namelessInput :
    read namelessInput 0 = .error (.malformed 6 (.inputKey "9")) := by
  have hhead : chanceHead? "5% [9]" = some ⟨5, "5%", 3⟩ := by decide +kernel
  have hlooks : looksLikeReference (Text.trim "5% [9]") = false := by decide +kernel
  have htrim : (Text.trim "5% [9]").head? ≠ some '@' := by decide +kernel
  have hunnamed : ∀ s, Text.trim "5% [9]" ≠ .char '@' :: s := fun s hs => htrim (hs ▸ rfl)
  have hblock : doubleMarker 2 "5% [9]" = .ok (.block ⟨5, "5%", 3⟩) := by
    rw [doubleMarker_unnamed hunnamed, hlooks, hhead]
    rfl
  have hopens : OpensWith false "9]" := fun _ => by decide
  have hinner : components 5 [] "[9]" = .error (.malformed 6 (.inputKey "9")) :=
    (components_marker hopens).trans rfl
  have hmarker : markerAt 2 true "5% [9]" = .error (.malformed 6 (.inputKey "9")) := by
    rw [markerAt, hblock]
    exact congrArg (Except.map _) hinner
  have hread : read namelessInput 0 = markerAt 2 true "5% [9]" >>= _ :=
    components_marker (.of_double "5% [9]]]")
  rw [hread, hmarker]
  rfl

theorem Row.faultAt_namelessInput : FaultAt ("1-3|" ++ namelessInput) 10 (.inputKey "9") := by
  have hhead : head? ("1-3|" ++ namelessInput) = some ⟨1, 3, 0, 4⟩ := by decide +kernel
  have hstart : bodyStart ("1-3|" ++ namelessInput) = 4 := by
    rw [bodyStart, hhead]
    rfl
  have hrange : HasRange ("1-3|" ++ namelessInput) := fun head h => by
    obtain rfl := Option.some.inj (hhead.symm.trans h)
    decide
  have hbody : Template.read (("1-3|" ++ namelessInput).drop
      (bodyStart ("1-3|" ++ namelessInput))) 0 = .error (.malformed 6 (.inputKey "9")) := by
    rw [hstart]
    exact Template.read_namelessInput
  have hfault := FaultAt.body hrange hbody
  rwa [hstart] at hfault

/-- A placeholder without a name is reported where its text starts, in a block and in a row. -/
theorem namelessInput_points :
    Template.read namelessInput 4 = .error (.malformed 10 (.inputKey "9")) ∧
      Row.read ("1-3|" ++ namelessInput) 1 = .error (.malformed 10 (.inputKey "9")) := by
  obtain ⟨_, hmoved, _, _⟩ := faults_point_into_line namelessInput 4 0
  obtain ⟨_, _, _, hfault⟩ := faults_point_into_line ("1-3|" ++ namelessInput) 0 1
  exact ⟨(hmoved _ _ Template.read_namelessInput).2.2, (hfault _ _).2 Row.faultAt_namelessInput⟩

end RandomTables
