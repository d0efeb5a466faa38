import RandomTables.Proofs.Template.Closed
import RandomTables.Proofs.Template.Positions

/-!
# A template and its first line

The reader stops where the first line ends, and so does the scan for the end of a marker, with one
exception: a backslash in a marker hides the character after it, and a newline is no exception to
this. So a marker can go on behind the end of its line. Where it does, the first line alone is
refused for the open marker and the whole text is not; every other text is read as its first line
is.
-/
namespace RandomTables.Template

/-- The part of a text before its first newline. -/
def firstLine (s : Text) : Text := s.takeWhile fun c => decide (c ≠ .char '\n')

theorem firstLine_append {start : Text} (h : .char '\n' ∉ start) (rest : Text) :
    firstLine (start ++ rest) = start ++ firstLine rest :=
  List.takeWhile_append_of_pos fun c hc => by
    rw [decide_eq_true_eq]
    rintro rfl
    exact h hc

theorem mem_head?_of_firstLine {s : Text} {c : CodePoint} (h : c ∈ (firstLine s).head?) :
    c ∈ s.head? := by
  cases s with
  | nil => exact h
  | cons d s =>
    by_cases hd : d = .char '\n'
    · subst hd
      cases h
    · rwa [← List.singleton_append, firstLine_append (by simpa using Ne.symm hd)] at h

theorem OpensWith.firstLine {double : Bool} {rest : Text} (h : OpensWith double rest) :
    OpensWith double (firstLine rest) :=
  fun hsingle c hc => h hsingle c (mem_head?_of_firstLine hc)

theorem newline_notMem_opening (double : Bool) : .char '\n' ∉ opening double := by
  cases double <;> decide

theorem newline_notMem_closing (double : Bool) : .char '\n' ∉ closing double := by
  cases double <;> decide

/-! ## The scan for the end of a marker -/

/-- A marker that ends on its line, and what follows it there. -/
def onLine (p : Text × Text) : Option (Text × Text) :=
  if .char '\n' ∈ p.1 then none else some (p.1, firstLine p.2)

theorem bind_onLine {start : Text} (h : .char '\n' ∉ start) (found : Option (Text × Text)) :
    (found.map fun p => (start ++ p.1, p.2)).bind onLine =
      (found.bind onLine).map fun p => (start ++ p.1, p.2) := by
  cases found with
  | none => rfl
  | some p =>
    simp only [Option.map_some, Option.bind_some, onLine, List.mem_append, h, false_or]
    split <;> rfl

/-- On the first line of a text the markers end that end on this line. -/
theorem takeBody_firstLine (double : Bool) (around : List Bool) (s : Text) :
    takeBody double around (firstLine s) = (takeBody double around s).bind onLine := by
  induction double, around, s using takeBody_induction with
  | @breaks double around s h =>
    rw [takeBody_breaks h]
    refine takeBody_breaks ?_
    rcases h with rfl | h | rfl
    · exact .inl rfl
    · obtain ⟨rest, rfl⟩ := List.head?_eq_some_iff.1 h
      exact .inl rfl
    · exact .inr (.inr rfl)
  | @hidden double around c rest ih =>
    rw [takeBody_hidden]
    by_cases hc : c = .char '\n'
    · subst hc
      have hline : firstLine (.char '\\' :: .char '\n' :: rest) = [.char '\\'] := rfl
      rw [hline, takeBody_breaks (.inr (.inr rfl))]
      cases takeBody double around rest with
      | none => rfl
      | some p => simp [onLine]
    · have hstart : .char '\n' ∉ [.char '\\', c] := by simpa using Ne.symm hc
      have hline := firstLine_append hstart rest
      have hmap := bind_onLine hstart (takeBody double around rest)
      simp only [List.cons_append, List.nil_append] at hline hmap
      rw [hline, takeBody_hidden, ih, hmap]
  | @passes double around c rest h ih =>
    have hstart : .char '\n' ∉ [c] := by simpa using h.ne_newline.symm
    have hline := firstLine_append hstart rest
    have hmap := bind_onLine hstart (takeBody double around rest)
    simp only [List.cons_append, List.nil_append] at hline hmap
    have h' : Passes double c (firstLine rest) :=
      ⟨h.ne_newline, h.ne_backslash, h.ne_open, fun hclose =>
        ⟨(h.alone hclose).1, fun d hd => (h.alone hclose).2 d (mem_head?_of_firstLine hd)⟩⟩
    rw [hline, takeBody_passes h', takeBody_passes h, ih, hmap]
  | @opens double inner around rest h ih =>
    have hstart := newline_notMem_opening inner
    rw [firstLine_append hstart, takeBody_opens h.firstLine, takeBody_opens h, ih,
      bind_onLine hstart]
  | @closes double rest =>
    rw [firstLine_append (newline_notMem_closing double), takeBody_closes, takeBody_closes]
    rfl
  | @returns double outer around rest ih =>
    have hstart := newline_notMem_closing double
    rw [firstLine_append hstart, takeBody_returns, takeBody_returns, ih, bind_onLine hstart]

theorem getLast?_firstLine_append {start rest : Text} {c : CodePoint} (h : .char '\n' ∉ start)
    (hlast : (firstLine rest).getLast? = some c) :
    (firstLine (start ++ rest)).getLast? = some c := by
  rw [firstLine_append h, List.getLast?_append, hlast, Option.some_or]

/-- What is taken in front on the same line has no influence on how the line ends. -/
theorem getLast?_firstLine_of_map {start rest body after : Text} {c : CodePoint}
    {found : Option (Text × Text)} (hstart : .char '\n' ∉ start)
    (hfound : found.map (fun p => (start ++ p.1, p.2)) = some (body, after))
    (hbody : .char '\n' ∈ body)
    (ih : ∀ {body after}, found = some (body, after) → .char '\n' ∈ body →
      (firstLine rest).getLast? = some c) :
    (firstLine (start ++ rest)).getLast? = some c := by
  obtain ⟨⟨more, _⟩, hmore, hparts⟩ := Option.map_eq_some_iff.1 hfound
  obtain ⟨rfl, rfl⟩ := Prod.mk.inj hparts
  exact getLast?_firstLine_append hstart
    (ih hmore ((List.mem_append.1 hbody).resolve_left hstart))

/-- A marker goes on behind the end of its line only if this end is hidden. -/
theorem getLast?_of_takeBody {double : Bool} {around : List Bool} {s body after : Text}
    (h : takeBody double around s = some (body, after)) (hbody : .char '\n' ∈ body) :
    (firstLine s).getLast? = some (.char '\\') := by
  induction double, around, s using takeBody_induction generalizing body after with
  | breaks hbreaks =>
    rw [takeBody_breaks hbreaks] at h
    cases h
  | @hidden double around c rest ih =>
    by_cases hc : c = .char '\n'
    · subst hc
      rfl
    · rw [takeBody_hidden] at h
      have hstart : .char '\n' ∉ [.char '\\', c] := by simpa using Ne.symm hc
      exact getLast?_firstLine_of_map hstart h hbody ih
  | @passes double around c rest hpasses ih =>
    rw [takeBody_passes hpasses] at h
    have hstart : .char '\n' ∉ [c] := by simpa using hpasses.ne_newline.symm
    exact getLast?_firstLine_of_map hstart h hbody ih
  | @opens double inner around rest hopens ih =>
    rw [takeBody_opens hopens] at h
    exact getLast?_firstLine_of_map (newline_notMem_opening inner) h hbody ih
  | closes =>
    rw [takeBody_closes] at h
    obtain ⟨rfl, -⟩ := Prod.mk.inj (Option.some.inj h)
    cases hbody
  | @returns double outer around rest ih =>
    rw [takeBody_returns] at h
    exact getLast?_firstLine_of_map (newline_notMem_closing double) h hbody ih

/-! ## The reader -/

/-- How the reading of a text at `position` compares with that of its first line. -/
inductive Compared (reading : Text → Except TemplateError (List Component)) (position : Int)
    (s : Text) : Prop
  /-- Both come to the same, and no marker is found open. -/
  | alike (h : reading s = reading (firstLine s)) (hclosed : Closed (reading (firstLine s)))
  /-- Both are refused for a marker that ends nowhere. -/
  | unclosed (before : Text) {rest : Text} {double : Bool}
    (hs : s = before ++ opening double ++ rest)
    (hline : reading (firstLine s) =
      .error (.malformed (position + before.length) (.openMarker double)))
    (hrest : takeBody double [] rest = none) (h : reading s = reading (firstLine s))
  /-- The line is refused for a marker that ends behind it, and the text is not. -/
  | closesLater (before : Text) {rest : Text} {double : Bool}
    (hs : s = before ++ opening double ++ rest)
    (hline : reading (firstLine s) =
      .error (.malformed (position + before.length) (.openMarker double)))
    (hrest : (takeBody double [] rest).isSome) (h : reading s ≠ reading (firstLine s))
    (hlast : (firstLine s).getLast? = some (.char '\\'))

/-- What has been read in front of a text on the same line changes nothing about this. -/
theorem Compared.behind {reading reading' : Text → Except TemplateError (List Component)}
    {position : Int} (start : Text) {rest : Text} (f : List Component → List Component)
    (hstart : .char '\n' ∉ start)
    (hreading : reading (start ++ rest) = (reading' rest).map f)
    (hreading' : reading (start ++ firstLine rest) = (reading' (firstLine rest)).map f)
    (h : Compared reading' (position + start.length) rest) :
    Compared reading position (start ++ rest) := by
  rw [← firstLine_append hstart] at hreading'
  have hplace : ∀ before : Text, position + start.length + before.length =
      position + (start ++ before).length := fun before => by
    rw [List.length_append]
    omega
  have happend : ∀ (before : Text) (double : Bool) (rest : Text),
      start ++ (before ++ opening double ++ rest) = start ++ before ++ opening double ++ rest :=
    fun before double rest => by simp only [List.append_assoc]
  cases h with
  | alike h hclosed => exact .alike (by rw [hreading, hreading', h]) (hreading' ▸ hclosed.map f)
  | @unclosed before behind double hs hline hrest h =>
    rw [hplace] at hline
    refine .unclosed _ (hs ▸ happend before double behind) ?_ hrest (by rw [hreading, hreading', h])
    rw [hreading', hline]
    rfl
  | @closesLater before behind double hs hline hrest h hlast =>
    rw [hplace] at hline
    have hline' : reading (firstLine (start ++ rest)) =
        .error (.malformed (position + (start ++ before).length) (.openMarker double)) := by
      rw [hreading', hline]
      rfl
    refine .closesLater _ (hs ▸ happend before double behind) hline' hrest (fun heq => h ?_)
      (getLast?_firstLine_append hstart hlast)
    rw [hreading, hline', map_eq_error_iff] at heq
    rw [heq, hline]

/-- How a marker at the start of a text is read on the first line. -/
theorem components_marker_firstLine {position : Int} {plain rest : Text} {double : Bool}
    (h : OpensWith double rest) :
    components position plain (firstLine (opening double ++ rest)) =
      match (takeBody double [] rest).bind onLine with
      | none => .error (.malformed position (.openMarker double))
      | some (body, after) =>
        markerAt (position + width double) double body >>= fun c =>
          (components (position + body.length + 2 * width double) [] after).map
            fun more => flush plain ++ c :: more := by
  rw [firstLine_append (newline_notMem_opening double), ← takeBody_firstLine]
  exact components_marker h.firstLine

section Marker
variable {double : Bool} {rest body after : Text}

/-- A marker whose end has been found is read alike whatever follows it. -/
theorem components_ending (h : OpensWith double rest)
    (hbody : takeBody double [] rest = some (body, after)) (position : Int) (plain t : Text) :
    components position plain (opening double ++ (body ++ closing double ++ t)) =
      markerAt (position + width double) double body >>= fun c =>
        (components (position + body.length + 2 * width double) [] t).map
          fun more => flush plain ++ c :: more := by
  have hends := takeBody_endsBehind hbody
  have hhead := hends.head?
  obtain ⟨_, hwhatever⟩ := hends
  simp only [outermost] at hwhatever hhead
  rw [components_marker (h.of_head (hhead t)), hwhatever t]

/-- A marker that ends in a later line is open on the first one. -/
theorem compared_of_newline (h : OpensWith double rest)
    (hbody : takeBody double [] rest = some (body, after)) (hnewline : .char '\n' ∈ body)
    (position : Int) (plain : Text) :
    Compared (components position plain) position (opening double ++ rest) := by
  have hline : components position plain (firstLine (opening double ++ rest)) =
      .error (.malformed position (.openMarker double)) := by
    rw [components_marker_firstLine h, hbody, Option.bind_some, onLine, if_pos hnewline]
  refine .closesLater [] rfl (by simpa using hline) (by rw [hbody]; rfl) ?_
    (getLast?_firstLine_append (newline_notMem_opening double)
      (getLast?_of_takeBody hbody hnewline))
  -- No marker is found open in this one, and whatever is found behind it stands there.
  rw [hline, (takeBody_endsBehind hbody).eq_append]
  intro hfault
  rcases bind_eq_error_iff.1 ((components_ending h hbody position plain after).symm.trans hfault)
    with hfault | ⟨c, _, hfault⟩
  · exact closed_of_takeBody hbody _ _ _ hfault
  · have := ((placed_components after []).bounded_from (map_eq_error_iff.1 hfault)).1
    have := width_pos double
    omega

/-- A marker that ends on the first line is read there, and what follows it compares alike. -/
theorem compared_of_onLine (h : OpensWith double rest)
    (hbody : takeBody double [] rest = some (body, after)) (hnewline : .char '\n' ∉ body)
    (hafter : ∀ position plain, Compared (components position plain) position after)
    (position : Int) (plain : Text) :
    Compared (components position plain) position (opening double ++ rest) := by
  have hstart : .char '\n' ∉ opening double ++ (body ++ closing double) := by
    simp only [List.mem_append, newline_notMem_opening, newline_notMem_closing, hnewline,
      or_self, not_false_eq_true]
  have hread : ∀ t, components position plain (opening double ++ (body ++ closing double) ++ t) =
      _ := fun t => (congrArg _ (List.append_assoc ..)).trans
        (components_ending h hbody position plain t)
  have hmarker := closed_of_takeBody hbody (position + width double)
  have hrest : opening double ++ rest = opening double ++ (body ++ closing double) ++ after := by
    rw [List.append_assoc, (takeBody_endsBehind hbody).eq_append, outermost]
  rw [hrest]
  cases hc : markerAt (position + width double) double body with
  | error e =>
    simp only [hc] at hread hmarker
    have hline := firstLine_append hstart after
    refine .alike ?_ ?_
    · rw [hline, hread, hread]
      rfl
    · rw [hline, hread]
      exact hmarker.bind fun c hok => by cases hok
  | ok c =>
    simp only [hc] at hread
    refine .behind _ _ hstart (hread after) (hread (firstLine after)) ?_
    have hplace : position + (opening double ++ (body ++ closing double)).length =
        position + body.length + 2 * width double := by
      simp only [List.length_append, length_opening, length_closing]
      omega
    rw [hplace]
    exact hafter _ _

end Marker

theorem compared (s : Text) :
    ∀ position plain, Compared (components position plain) position s := by
  induction s using template_induction with
  | @ended s h =>
    intro position plain
    have hline : ∀ c ∈ (firstLine s).head?, c = .char '\n' :=
      fun c hc => h c (mem_head?_of_firstLine hc)
    refine .alike ?_ ?_
    · rw [components_ended h, components_ended hline]
    · rw [components_ended hline]
      exact .ok _
  | @hidden c rest h ih =>
    intro position plain
    have hstart : .char '\n' ∉ [.char '\\', c] := by
      simp only [List.mem_cons, List.not_mem_nil, or_false, not_or]
      refine ⟨by decide, ?_⟩
      rintro rfl
      exact absurd h (by decide)
    refine .behind [.char '\\', c] id hstart ?_ ?_ (ih (position + 2) (c :: plain))
    · rw [Except.map_id]
      exact components_hidden h
    · rw [Except.map_id]
      exact components_hidden h
  | @plain c rest h ih =>
    intro position plain
    have hline : StandsPlain c (firstLine rest) :=
      ⟨h.ne_newline, h.ne_open, fun hbackslash d hd =>
        h.hides_nothing hbackslash d (mem_head?_of_firstLine hd)⟩
    refine .behind [c] id (by simpa using h.ne_newline.symm) ?_ ?_
      (ih (position + 1) (c :: plain))
    · rw [Except.map_id]
      exact components_plain h
    · rw [Except.map_id]
      exact components_plain hline
  | @unclosed double rest h hbody =>
    intro position plain
    have hline : components position plain (firstLine (opening double ++ rest)) =
        .error (.malformed position (.openMarker double)) := by
      rw [components_marker_firstLine h, hbody, Option.bind_none]
    refine .unclosed [] rfl (by simpa using hline) hbody ?_
    rw [hline, components_marker h, hbody]
  | @marker double rest body after h hbody ihbody ihafter =>
    by_cases hnewline : .char '\n' ∈ body
    · exact compared_of_newline h hbody hnewline
    · exact compared_of_onLine h hbody hnewline ihafter

/-- A marker is open on the first line of the text and ends further on. -/
def ClosesLater (s : Text) : Prop :=
  ∃ before rest double, s = before ++ opening double ++ rest ∧
    read (firstLine s) 0 = .error (.malformed before.length (.openMarker double)) ∧
    (takeBody double [] rest).isSome

/-- A text is read as its first line is, unless a marker that is open there ends further on; and a
marker can only do so if a backslash hides the end of the line. -/
theorem read_eq_read_firstLine_iff (s : Text) (offset : Int) :
    (read s offset = read (firstLine s) offset ↔ ¬ ClosesLater s) ∧
    (ClosesLater s → (firstLine s).getLast? = some (.char '\\')) := by
  have hcompared : Compared (read · offset) offset s := compared s offset []
  cases hcompared with
  | alike h hclosed =>
    have hlater : ¬ ClosesLater s := by
      rintro ⟨before, rest, double, _, hline, _⟩
      exact hclosed _ double (read_eq_malformed_iff.2 hline)
    exact ⟨iff_of_true h hlater, fun h => absurd h hlater⟩
  | @unclosed before rest double hs hline hrest h =>
    have hlater : ¬ ClosesLater s := by
      rintro ⟨before', rest', double', hs', hline', hrest'⟩
      obtain ⟨hlength, hdouble⟩ := TemplateError.malformed.inj
        (Except.error.inj ((read_eq_malformed_iff.1 hline).symm.trans hline'))
      obtain rfl := TemplateFault.openMarker.inj hdouble
      rw [hs, List.append_assoc, List.append_assoc] at hs'
      obtain ⟨-, hbehind⟩ := List.append_inj hs' (Int.ofNat.inj hlength)
      obtain rfl := List.append_cancel_left hbehind
      rw [hrest] at hrest'
      cases hrest'
    exact ⟨iff_of_true h hlater, fun h => absurd h hlater⟩
  | @closesLater before rest double hs hline hrest h hlast =>
    have hlater : ClosesLater s := ⟨before, rest, double, hs, read_eq_malformed_iff.1 hline, hrest⟩
    exact ⟨iff_of_false h (not_not_intro hlater), fun _ => hlast⟩

/-- A placeholder with a hidden newline in its name. -/
def brokenName : Text := "[a\\\nb]"

theorem opensWith_brokenName : OpensWith false "a\\\nb]" := fun _ => by decide

theorem read_brokenName : read brokenName 0 = .error (.malformed 1 (.inputKey "a\\\nb")) :=
  (components_marker opensWith_brokenName).trans rfl

theorem read_firstLine_brokenName :
    read (firstLine brokenName) 0 = .error (.malformed 0 (.openMarker false)) :=
  (components_marker_firstLine opensWith_brokenName).trans rfl

/-- It is refused for its name, and its first line for the open marker. -/
theorem brokenName_read_ne : read brokenName 0 ≠ read (firstLine brokenName) 0 := by
  rw [read_brokenName, read_firstLine_brokenName]
  nofun

theorem brokenName_closesLater :
    ClosesLater brokenName ∧ (firstLine brokenName).getLast? = some (.char '\\') := by
  have hlater : ClosesLater brokenName :=
    ⟨[], "a\\\nb]", false, rfl, read_firstLine_brokenName, rfl⟩
  exact ⟨hlater, (read_eq_read_firstLine_iff brokenName 0).2 hlater⟩

end RandomTables.Template
