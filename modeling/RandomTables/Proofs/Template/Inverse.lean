import RandomTables.Proofs.Definition.Sides
import RandomTables.Proofs.Dice.Notation
import RandomTables.Proofs.Template.Spelling

/-!
# Reading a spelling

Reading the spelling of canonical components gives these components. What the brackets hold is found
by a scan that knows nothing of what is in there, so there are two things to show of each component:
that the scan stops at its own closing brackets, and that what is found in between is read as the
component. Blocks hold a spelling of their own, which is read in the same way.

Dice are the one thing that the reader looks at more closely than the spelling does: a computed
value whose dice have no sides can be spelled, but not read, and a minus in front of a number of
dice is read as their sign.
-/
namespace RandomTables

namespace Template
open Component (AllRegular CanonicalAll StartsPlain textAll)
variable {position : Int} {plain name s : Text}

/-! ## Placeholders -/

/-- An option is read as its name and its value. -/
theorem option_parts (name : Text) {value : Text} (hname : name ∈ (["c", "cbg", "t"] : List Text))
    (hvalue : Text.trim value = value) :
    Text.trim (name ++ .char '=' :: value) = name ++ .char '=' :: value ∧
      indexModifier? (name ++ .char '=' :: value) = none ∧
      Text.cut '=' (name ++ .char '=' :: value) = (name, some value) ∧ Text.trim name = name := by
  have hends : ∀ name ∈ (["c", "cbg", "t"] : List Text), name ≠ [] ∧
      (∀ c ∈ name.head?, Text.isBlank c = false ∧ c ≠ .char '[') ∧ .char '=' ∉ name ∧
      Text.trim name = name := by decide
  obtain ⟨hne, hhead, hequals, htrim⟩ := hends name hname
  refine ⟨?_, ?_, Text.cut_append_cons hequals value, htrim⟩
  · exact Text.trim_of_trimmed (Text.trimmed_append_cons hne (fun c hc => (hhead c hc).1) rfl
      (Text.trimmed_of_trim hvalue).last)
  · obtain ⟨c, rest, rfl⟩ := List.exists_cons_of_ne_nil hne
    have hopen := (hhead c rfl).2
    rw [List.cons_append, indexModifier?]
    simpa using hopen

theorem indexModifier?_single (n : Nat) : indexModifier? (single (Text.natural n)) = some n := by
  have hdigits : Text.trim (Text.natural n) = Text.natural n := Text.trim_of_not_isBlank fun c hc =>
    Text.isBlank_of_isDigitSign (Text.isDigitSign_of_mem_natural c hc)
  simp only [single, indexModifier?, List.reverse_append, List.reverse_singleton,
    List.singleton_append, List.reverse_reverse, hdigits]
  exact Text.numeral?_eq_some_iff.2 (Text.denotes_natural n)

theorem applyModifier_text {key : Text} {m : Modifier} (h : m.Canonical) (p : Placeholder) :
    applyModifier position key p m.text = .ok (m.apply p) := by
  cases m with
  | color value =>
    obtain ⟨htrim, hindex, hcut, hname⟩ := option_parts "c" (by decide) h.trimmed
    simp only [Modifier.text, applyModifier, htrim, hindex, hcut, hname, Option.getD_some,
      h.trimmed, List.isEmpty_eq_false_iff.2 h.ne_nil]
    rfl
  | background value =>
    obtain ⟨htrim, hindex, hcut, hname⟩ := option_parts "cbg" (by decide) h.trimmed
    simp only [Modifier.text, applyModifier, htrim, hindex, hcut, hname, Option.getD_some,
      h.trimmed, List.isEmpty_eq_false_iff.2 h.ne_nil]
    rfl
  | transform t =>
    have hvalue : Text.trim t.name = t.name ∧ Text.lower t.name = t.name ∧
        t.name.isEmpty = false := by
      cases t <;> decide +kernel
    obtain ⟨htrim, hindex, hcut, hname⟩ := option_parts "t" (by decide) hvalue.1
    simp only [Modifier.text, applyModifier, htrim, hindex, hcut, hname, Option.getD_some, hvalue,
      TextTransform.ofName?_name]
    rfl
  | index n =>
    have htrim : Text.trim (single (Text.natural n)) = single (Text.natural n) :=
      Text.trim_of_trimmed (Text.trimmed_append_cons (s := .char '[' :: Text.natural n)
        (List.cons_ne_nil _ _) (by rintro _ ⟨⟩; rfl) rfl nofun)
    simp only [Modifier.text, applyModifier, htrim, indexModifier?_single]
    rfl

/-- The modifiers of a placeholder make it what it is. -/
theorem foldl_apply_modifiers (p : Placeholder) :
    p.modifiers.foldl Modifier.apply ⟨p.key, none, none, none, 0⟩ = p := by
  obtain ⟨key, color, background, transform, index⟩ := p
  by_cases hindex : index = 0
  all_goals
    cases color <;> cases background <;> cases transform <;>
      simp [Placeholder.modifiers, Modifier.apply, hindex]

/-- Modifiers are read one after another. -/
theorem foldlM_applyModifier {key : Text} {modifiers : List Modifier}
    (h : ∀ m ∈ modifiers, m.Canonical) (p : Placeholder) :
    (modifiers.map Modifier.text).foldlM (applyModifier position key) p =
      .ok (modifiers.foldl Modifier.apply p) := by
  induction modifiers generalizing p with
  | nil => rfl
  | cons m modifiers ih =>
    obtain ⟨hm, hmodifiers⟩ := List.forall_mem_cons.1 h
    rw [List.map_cons, List.foldlM_cons, applyModifier_text hm]
    exact ih hmodifiers _

theorem noComma_text {m : Modifier} (h : m.Canonical) : .char ',' ∉ m.text := by
  cases m with
  | color value | background value =>
    intro hmem
    rcases List.mem_append.1 hmem with hmem | hmem
    · exact absurd hmem (by decide)
    · exact Text.IsColor.noComma h (List.mem_of_ne_of_mem (by decide) hmem)
  | transform t => cases t <;> decide
  | index n =>
    intro hmem
    rcases List.mem_append.1 (List.mem_of_ne_of_mem (by decide) hmem) with hmem | hmem
    · have hdigit := Text.isDigitSign_of_mem_natural _ hmem
      exact Text.ne_of_isDigitSign hdigit (by decide +kernel) rfl
    · exact absurd hmem (by decide)

/-- The spelling of a placeholder is read as the placeholder. -/
theorem placeholder_body {p : Placeholder} (h : p.Canonical) :
    placeholder position p.body = .ok p := by
  have hblank := foldl_apply_modifiers p
  unfold Placeholder.body
  split
  · next hnone =>
    rw [hnone] at hblank
    simp only [placeholder, Text.cut_of_not_mem h.key.noColon, h.key.trimmed, h.key.isName]
    exact congrArg Except.ok hblank
  · next hsome =>
    have hsplit : Text.split ',' (Text.joinWith [.char ','] (p.modifiers.map Modifier.text)) =
        p.modifiers.map Modifier.text := by
      refine Text.split_joinWith ?_ fun hnil => hsome (List.map_eq_nil_iff.1 hnil)
      intro piece hpiece
      obtain ⟨m, hm, rfl⟩ := List.mem_map.1 hpiece
      exact noComma_text (canonical_of_mem_modifiers h m hm)
    simp only [placeholder, Text.cut_append_cons h.key.noColon, h.key.trimmed, h.key.isName]
    rw [hsplit]
    exact (foldlM_applyModifier (canonical_of_mem_modifiers h) _).trans (congrArg Except.ok hblank)

/-! ## Double markers -/

theorem referenceAt_path {r : Reference} (h : r.Canonical) (name : Option Text) :
    referenceAt position r.path name = .ok (.reference r name) := by
  obtain ⟨path, instructions⟩ := r
  obtain rfl := h.plain
  have hread : Reference.ofText path = .ok ⟨path, .plain⟩ := by
    rw [Reference.ofText, Text.split_of_not_mem h.noBar]
    change Except.ok (Reference.mk (Text.trim path) .plain) = _
    rw [h.trimmed]
  simp only [referenceAt, hread]

theorem namedAt_path {start : Int} {r : Reference} (hname : name.IsKey) (h : r.Canonical) :
    namedAt position start (name ++ .char ':' :: r.path) = .ok (.reference r (some name)) := by
  simp only [namedAt, Text.cut_append_cons hname.noColon, hname.trimmed, hname.isName, h.trimmed,
    h.start, referenceAt_path h]
  rfl

/-- Nothing in a dice expression is blank. -/
theorem isBlank_of_mem_text {e : Dice.Expr} : ∀ c ∈ e.text, Text.isBlank c = false := by
  intro c hc
  have hsigns : ∀ c ∈ ("+-*d()" : Text), Text.isBlank c = false := by decide
  rcases Dice.Expr.sign_of_mem_text c hc with hdigit | hsign
  · exact Text.isBlank_of_isDigitSign hdigit
  · exact hsigns c hsign

/-- No dice expression starts as a reference does. -/
theorem looksLikeReference_text (e : Dice.Expr) : looksLikeReference e.text = false := by
  cases htext : e.text with
  | nil => rfl
  | cons c rest =>
    have hsigns : ∀ c ∈ ("+-*d()" : Text), c ≠ .char '/' ∧ c ≠ .char '.' ∧ c ≠ .char '$' := by
      decide
    rcases Dice.Expr.sign_of_mem_text c (htext ▸ List.mem_cons_self ..) with hdigit | hsign
    · exact looksLikeReference_of_isDigitSign hdigit rest
    · refine looksLikeReference_eq_false ?_
      rintro _ ⟨⟩
      exact hsigns c hsign

theorem namedAt_text {start : Int} {e : Dice.Expr} (hname : name.IsKey) (he : e.Regular) :
    namedAt position start (name ++ .char ':' :: e.text) = .ok (.computed name e) := by
  have htrim : Text.trim e.text = e.text := Text.trim_of_not_isBlank isBlank_of_mem_text
  have hread := Dice.Expr.read_text_of_regular he
  simp only [namedAt, Text.cut_append_cons hname.noColon, hname.trimmed, hname.isName, htrim,
    looksLikeReference_text e, hread]
  rfl

/-- A marker that starts with a name holds what stands behind the name. -/
theorem doubleMarker_named (position : Int) (name : Text)
    (hs : ∀ c ∈ s.getLast?, Text.isBlank c = false) :
    ∃ start, doubleMarker position (named name s) =
      (namedAt position start (name ++ .char ':' :: s)).map .component := by
  have htrim : Text.trim (named name s) = named name s :=
    Text.trim_of_trimmed (Text.trimmed_append_cons (List.cons_ne_nil _ _)
      (by rintro _ ⟨⟩; rfl) rfl hs)
  simp only [doubleMarker, htrim]
  -- Where the name starts only matters for the position of a fault.
  exact ⟨_, rfl⟩

theorem doubleMarker_computed {e : Dice.Expr} (hname : name.IsKey) (he : e.Regular) :
    doubleMarker position (named name e.text) = .ok (.component (.computed name e)) := by
  obtain ⟨start, hmarker⟩ := doubleMarker_named position name (s := e.text) fun c hc =>
    isBlank_of_mem_text c (List.mem_of_getLast? hc)
  rw [hmarker, namedAt_text hname he]
  rfl

theorem doubleMarker_reference {r : Reference} (hname : name.IsKey) (h : r.Canonical) :
    doubleMarker position (named name r.path) = .ok (.component (.reference r (some name))) := by
  obtain ⟨start, hmarker⟩ := doubleMarker_named position name (s := r.path)
    (Text.trimmed_of_trim h.trimmed).last
  rw [hmarker, namedAt_path hname h]
  rfl

theorem doubleMarker_path {r : Reference} (h : r.Canonical) :
    doubleMarker position r.path = .ok (.component (.reference r none)) := by
  have hstart := h.start
  simp only [doubleMarker, h.trimmed]
  split
  · next s hpath =>
    rw [hpath, looksLikeReference_eq_false (by rintro _ ⟨⟩; decide)] at hstart
    cases hstart
  · simp only [hstart, if_true, referenceAt_path h]
    rfl

theorem chanced_eq (chance : Nat) (s : Text) :
    chanced chance s = Text.natural chance ++ .char '%' :: .char ' ' :: s := by
  simp [chanced, chanceLabel]

/-- A text with a chance in front of it starts with a digit. -/
theorem exists_chanced_eq (chance : Nat) (s : Text) :
    ∃ c rest, chanced chance s = c :: rest ∧ Text.isDigitSign c := by
  obtain ⟨c, rest, hnatural⟩ := List.exists_cons_of_ne_nil (Text.denotes_natural chance).ne_nil
  have hdigit := Text.isDigitSign_of_mem_natural c (n := chance) (hnatural ▸ List.mem_cons_self ..)
  exact ⟨c, _, by rw [chanced_eq, hnatural, List.cons_append], hdigit⟩

theorem trimStart_chanced (chance : Nat) (s : Text) :
    Text.trimStart (chanced chance s) = chanced chance s := by
  obtain ⟨c, rest, htext, hdigit⟩ := exists_chanced_eq chance s
  rw [htext, Text.trimStart_cons_of_not_isBlank (Text.isBlank_of_isDigitSign hdigit)]

/-- The chance is the number that the text starts with. -/
theorem run_chanced (chance : Nat) (s : Text) :
    (chanced chance s).takeWhile Text.isDecimal = Text.natural chance ∧
      (chanced chance s).dropWhile Text.isDecimal = .char '%' :: .char ' ' :: s := by
  rw [chanced_eq]
  refine Text.takeWhile_append (Text.denotes_natural chance).isDecimal ?_
  rintro _ ⟨⟩
  decide +kernel

theorem trimmed_chanceLabel (chance : Nat) : Text.Trimmed (chanceLabel chance) := by
  refine Text.trimmed_append_cons (Text.denotes_natural chance).ne_nil (fun c hc => ?_) rfl nofun
  have hdigit := Text.isDigitSign_of_mem_natural c (List.mem_of_mem_head? hc)
  exact Text.isBlank_of_isDigitSign hdigit

/-- The head of a block is its label and the blank behind it. -/
theorem chanced_eq_head_append (chance : Nat) (s : Text) :
    chanced chance s = (chanceLabel chance ++ [.char ' ']) ++ s := by
  rw [chanced, List.append_assoc, List.singleton_append]

theorem length_head (chance : Nat) :
    (chanceLabel chance).length + 1 = (chanceLabel chance ++ [CodePoint.char ' ']).length := by
  rw [List.length_append, List.length_singleton]

theorem drop_head (chance : Nat) (s : Text) :
    (chanced chance s).drop ((chanceLabel chance).length + 1) = s := by
  rw [chanced_eq_head_append, length_head, List.drop_left]

/-- The head of a block is read off the text in front of its inner text. -/
theorem chanceHead?_chanced (chance : Nat) (s : Text) :
    chanceHead? (chanced chance s) =
      some ⟨chance, chanceLabel chance, (chanceLabel chance).length + 1⟩ := by
  obtain ⟨hrun, hrest⟩ := run_chanced chance s
  have hchance := Text.numeral?_eq_some_iff.2 (Text.denotes_natural chance)
  have hsign : afterChanceSign? (Text.trimStart (.char '%' :: .char ' ' :: s)) =
      some (.char ' ' :: s) := rfl
  have hblank : Text.isBlank (.char ' ') = true := rfl
  have hlength : (chanced chance s).length - s.length = (chanceLabel chance).length + 1 := by
    rw [chanced_eq_head_append, List.length_append, Nat.add_sub_cancel, length_head]
  have htake : (chanced chance s).take ((chanceLabel chance).length + 1) =
      chanceLabel chance ++ [.char ' '] := by
    rw [chanced_eq_head_append, length_head, List.take_left]
  -- The label is cut off with the blank behind it and trimmed.
  have hlabel : Text.trim (chanceLabel chance ++ [.char ' ']) = chanceLabel chance :=
    Text.trim_append_blank (trimmed_chanceLabel chance) (by simp [chanceLabel]) hblank
  simp only [chanceHead?, trimStart_chanced, hrun, hrest, hchance, hsign, Option.bind_eq_bind,
    Option.bind_some, hblank, if_true, hlength, htake, hlabel]

theorem doubleMarker_chanced {chance : Nat} (hchance : chance ≤ 100) (s : Text) :
    doubleMarker position (chanced chance s) =
      .ok (.block ⟨chance, chanceLabel chance, (chanceLabel chance).length + 1⟩) := by
  have hhead := chanceHead?_chanced chance s
  obtain ⟨c, rest, htext, hdigit⟩ := exists_chanced_eq chance s
  rw [htext] at hhead ⊢
  obtain ⟨t, htrim⟩ := Text.exists_trim_cons (Text.isBlank_of_isDigitSign hdigit) rest
  have hstart := looksLikeReference_of_isDigitSign hdigit t
  have hat : c ≠ .char '@' := Text.ne_of_isDigitSign hdigit (by decide +kernel)
  simp only [doubleMarker, htrim]
  split
  · next heq => exact absurd (List.cons.inj heq).1 hat
  · simp only [hstart, hhead]
    rw [if_neg (by simp), if_neg (by omega)]

/-! ## Components -/

/-- Plain text is read as it was before the backslashes were put in. -/
theorem components_escaped (h : .char '\n' ∉ s) (position : Int) (plain rest : Text) :
    ∃ next, components position plain (escaped s ++ rest) =
      components next (s.reverse ++ plain) rest := by
  induction s generalizing position plain with
  | nil => exact ⟨position, rfl⟩
  | cons c s ih =>
    have hnewline : c ≠ .char '\n' := (List.ne_of_not_mem_cons h).symm
    have ih := ih (List.not_mem_of_not_mem_cons h)
    rw [List.reverse_cons, List.append_assoc, List.singleton_append, escaped]
    split
    · next hc =>
      obtain ⟨next, hnext⟩ := ih (position + 2) (c :: plain)
      refine ⟨next, ?_⟩
      rw [List.cons_append, List.cons_append, components, if_pos hc, hnext]
    · next hc =>
      obtain ⟨next, hnext⟩ := ih (position + 1) (c :: plain)
      refine ⟨next, ?_⟩
      simp only [isEscapable, Bool.or_eq_true, beq_iff_eq, not_or] at hc
      rw [List.cons_append, components, hnext]
      all_goals simp [hnewline, hc]

/-- A double marker around a balanced text ends where it should. -/
theorem components_double {body : Text} (hbody : Balanced body) (rest : Text) :
    components position plain (double body ++ rest) =
      match doubleMarker (position + 2) body with
      | .error e => .error e
      | .ok (.component c) =>
        (components (position + body.length + 4) [] rest).map fun more => flush plain ++ c :: more
      | .ok (.block head) =>
        match components (position + 2 + head.length) [] (body.drop head.length) with
        | .error e => .error e
        | .ok inner =>
          (components (position + body.length + 4) [] rest).map fun more =>
            flush plain ++ .percent head.chance head.label inner :: more := by
  have htake := takeBody_double hbody rest
  have hspelling : double body ++ rest =
      .char '[' :: .char '[' :: (body ++ .char ']' :: .char ']' :: rest) := by
    simp [double]
  rw [hspelling, components]
  split
  · next hnone =>
    rw [htake] at hnone
    cases hnone
  · next found after hsome =>
    rw [htake] at hsome
    obtain ⟨rfl, rfl⟩ := Prod.mk.inj (Option.some.inj hsome)
    rfl

/-- A single marker around a balanced text is read as the placeholder in it. -/
theorem components_single {body rest : Text} {p : Placeholder} (hbody : Balanced body)
    (hstart : ∀ c ∈ body.head?, c ≠ .char '[')
    (hmarker : placeholder (position + 1) body = .ok p) :
    components position plain (single body ++ rest) =
      (components (position + body.length + 2) [] rest).map fun more =>
        flush plain ++ .input p :: more := by
  have htake := takeBody_single hbody rest
  have hopen : ∀ more, body ++ .char ']' :: rest ≠ .char '[' :: more := by
    intro more hmore
    cases body with
    | nil => cases hmore
    | cons c body => exact hstart c rfl (List.cons.inj hmore).1
  rw [single, List.cons_append, List.append_assoc, List.singleton_append, components]
  · split
    · next hnone =>
      rw [htake] at hnone
      cases hnone
    · next found after hsome =>
      rw [htake] at hsome
      obtain ⟨rfl, rfl⟩ := Prod.mk.inj (Option.some.inj hsome)
      rw [hmarker]
  · exact hopen

theorem flush_of_ne_nil (h : s ≠ []) : flush s.reverse = [.plain s] := by
  rw [flush, if_neg (by simpa using h), List.reverse_reverse]

/-- What stands in front of a marker does not change how the rest is read. -/
theorem map_flush {c : Component} {cs : List Component}
    {read : Except TemplateError (List Component)} (h : read = .ok (flush [] ++ cs)) :
    (read.map fun more => flush plain ++ c :: more) = .ok (flush plain ++ c :: cs) := by
  rw [h]
  rfl

/-- The spelling of canonical components whose dice are regular is read as these components, whatever
plain text stands in front of it. -/
theorem components_textAll : (cs : List Component) → CanonicalAll cs → AllRegular cs →
    ∀ (position : Int) (plain : Text), (plain ≠ [] → ¬ StartsPlain cs) →
      components position plain (textAll cs) = .ok (flush plain ++ cs)
  | [], _, _, position, plain, _ => by
    rw [textAll, components, List.append_nil]
  | .plain text :: rest, ⟨⟨hne, hline⟩, hapart, hrest⟩, ⟨_, hregular⟩, position, plain, hplain => by
    -- The scan would join this text with what it holds back, so it must hold back nothing.
    obtain rfl : plain = [] := by_contra fun h => hplain h trivial
    obtain ⟨next, hnext⟩ := components_escaped hline position [] (textAll rest)
    have ih := components_textAll rest hrest hregular next (text.reverse ++ []) fun _ =>
      hapart trivial
    rw [textAll, Component.text, hnext, ih, List.append_nil, flush_of_ne_nil hne]
    rfl
  | .input p :: rest, ⟨hp, _, hrest⟩, ⟨_, hregular⟩, position, plain, _ => by
    rw [textAll, Component.text, components_single (balanced_body hp) (head_body hp)
      (placeholder_body hp)]
    exact map_flush (components_textAll rest hrest hregular _ [] (absurd rfl))
  | .computed name expr :: rest, ⟨hname, _, hrest⟩, ⟨hexpr, hregular⟩, position, plain, _ => by
    rw [textAll, Component.text, components_double (balanced_named hname Dice.Expr.unmarked_text),
      doubleMarker_computed hname hexpr]
    exact map_flush (components_textAll rest hrest hregular _ [] (absurd rfl))
  | .percent chance label inner :: rest, ⟨⟨hchance, hlabel, hinner⟩, _, hrest⟩,
      ⟨hinnerRegular, hregular⟩, position, plain, _ => by
    obtain rfl := hlabel
    have hbody : Balanced (chanced chance (textAll inner)) :=
      balanced_chanced (balanced_textAll inner hinner)
    rw [textAll, Component.text, components_double hbody, doubleMarker_chanced hchance]
    dsimp only
    -- The inner text is read from its own start, where no plain text is held back.
    rw [drop_head, components_textAll inner hinner hinnerRegular _ [] (absurd rfl)]
    exact map_flush (components_textAll rest hrest hregular _ [] (absurd rfl))
  | .reference ref none :: rest, ⟨⟨href, _⟩, _, hrest⟩, ⟨_, hregular⟩, position, plain, _ => by
    rw [textAll, Component.text, components_double (.of_unmarked href.unmarked),
      doubleMarker_path href]
    exact map_flush (components_textAll rest hrest hregular _ [] (absurd rfl))
  | .reference ref (some name) :: rest, ⟨⟨href, hname⟩, _, hrest⟩, ⟨_, hregular⟩, position, plain,
      _ => by
    have hkey := hname name rfl
    rw [textAll, Component.text, components_double (balanced_named hkey href.unmarked),
      doubleMarker_reference hkey href]
    exact map_flush (components_textAll rest hrest hregular _ [] (absurd rfl))
termination_by cs => sizeOf cs

/-- The spelling of canonical components is read as these components exactly if the dice in them are
regular: they have sides, and nowhere are there to be fewer of them than none. -/
theorem read_textAll_iff {cs : List Component} (h : CanonicalAll cs) (offset : Int) :
    read (textAll cs) offset = .ok cs ↔ AllRegular cs :=
  ⟨read_allRegular, fun hregular => components_textAll cs h hregular offset [] (absurd rfl)⟩

/-- A value computed from a die without sides. -/
def sideless : List Component := [.computed "x" (.dice 1 0 false)]

/-- A die without sides can be spelled, but not read. Nor can chances or numbers of values be below
zero. -/
theorem sideless_not_read :
    CanonicalAll sideless ∧ textAll sideless = "[[@x:1d0]]" ∧
      read (textAll sideless) 0 ≠ .ok sideless ∧
      (read "[[-5% gem]]" 0).isOk = false ∧ (read "[who:[-1]]" 0).isOk = false := by
  refine ⟨by decide +kernel, by decide +kernel, fun hread => ?_, by decide +kernel,
    by decide +kernel⟩
  exact absurd (read_allHaveSides hread).1 (by simp [Component.HasSides])

/-- Blocks inside of a block, a placeholder in the inner one that ends where both end, and brackets
that mean themselves. -/
def nested : List Component :=
  [.plain "a [b\\",
    .percent 50 "50%"
      [.reference (.toPath "../gem") none, .plain " ",
        .percent 7 "7%"
          [.computed "n" (.join .mul (.constant (-2)) (.join .add (.dice 0 6 true) (.constant 1))),
            .reference (.toPath "$/hoard") (some "h"),
            .input ⟨"who", some "red", some "#000", some .title, 12⟩]],
    .input ⟨"who", none, none, none, 0⟩, .percent 100 "100%" []]

/-- However many brackets stand next to each other, each of them is taken for what it is. A minus in
front of a number of dice is taken for their sign, so one die fewer than none is not read as
itself. -/
theorem nested_read :
    textAll nested = "a \\[b\\\\[[50% [[../gem]] [[7% [[@n:-2*(-0d6+1)]][[@h:$/hoard]]" ++
        "[who:c=red,cbg=#000,t=title,[12]]]]]][who][[100% ]]" ∧
      CanonicalAll nested ∧ read (textAll nested) 0 = .ok nested ∧
      CanonicalAll [.computed "x" (.dice (-1) 6 false)] ∧
      read (textAll [.computed "x" (.dice (-1) 6 false)]) 0 ≠
        .ok [.computed "x" (.dice (-1) 6 false)] := by
  have hcanonical : CanonicalAll nested := by decide +kernel
  have hplain : ∀ path, (Reference.toPath path).Regular := fun _ => nofun
  have hregular : AllRegular nested := by
    simp [nested, AllRegular, Component.Regular, Dice.Expr.Regular, hplain]
  have hfewer : CanonicalAll [.computed "x" (.dice (-1) 6 false)] := by decide +kernel
  refine ⟨by decide +kernel, hcanonical, (read_textAll_iff hcanonical 0).2 hregular, hfewer, ?_⟩
  rw [ne_eq, read_textAll_iff hfewer]
  simp [AllRegular, Component.Regular, Dice.Expr.Regular]

end Template
end RandomTables
