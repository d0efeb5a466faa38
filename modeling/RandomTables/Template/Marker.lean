import RandomTables.Template.Fault
import RandomTables.Text.Word

/-!
# Markers

A marker stands between single or double brackets and may hold further markers. A single one is a
placeholder. A double one is a computed value, a reference, or a block with a chance; the block's
inner text is a template of its own, so its head is all that is read here.
-/
namespace RandomTables.Template

/-- The text of a marker up to its end, and the text after it, given whether the innermost open
marker is double and the same for those around it. A backslash hides the character after it, and a
marker must end on its line. -/
def takeBody (double : Bool) (around : List Bool) : Text → Option (Text × Text)
  | [] => none
  | .char '\n' :: _ => none
  | .char '\\' :: c :: rest => (takeBody double around rest).map fun p => ('\\' :: c :: p.1, p.2)
  | .char '\\' :: [] => none
  | .char '[' :: .char '[' :: rest =>
    (takeBody true (double :: around) rest).map fun p => ('[' :: '[' :: p.1, p.2)
  | .char '[' :: rest => (takeBody false (double :: around) rest).map fun p => ('[' :: p.1, p.2)
  | .char ']' :: .char ']' :: rest =>
    if double then
      match around with
      | [] => some ([], rest)
      | d :: ds => (takeBody d ds rest).map fun p => (']' :: ']' :: p.1, p.2)
    else
      match around with
      | [] => some ([], ']' :: rest)
      | d :: ds => (takeBody d ds (']' :: rest)).map fun p => (']' :: p.1, p.2)
  | .char ']' :: rest =>
    if double then (takeBody double around rest).map fun p => (']' :: p.1, p.2)
    else
      match around with
      | [] => some ([], rest)
      | d :: ds => (takeBody d ds rest).map fun p => (']' :: p.1, p.2)
  | c :: rest => (takeBody double around rest).map fun p => (c :: p.1, p.2)

/-- A marker's text and what follows it are shorter than what follows its opening. -/
theorem takeBody_length {double : Bool} {around : List Bool} {s body after : Text}
    (h : takeBody double around s = some (body, after)) :
    body.length + after.length < s.length := by
  fun_induction takeBody double around s generalizing body after with
  | case1 | case2 | case4 => simp at h
  | case7 | case9 | case12 =>
    simp only [Option.some.injEq, Prod.mk.injEq] at h
    obtain ⟨rfl, rfl⟩ := h
    simp only [List.length_nil, List.length_cons]
    omega
  | case3 | case5 | case6 | case8 | case10 | case11 | case13 | case14 =>
    rename_i ih
    simp only [Option.map_eq_some_iff, Prod.mk.injEq, Prod.exists] at h
    obtain ⟨b, r, hbr, rfl, rfl⟩ := h
    have := ih hbr
    simp only [List.length_cons] at this ⊢
    omega

/-- The ways in which a reference inside a template starts. -/
def referenceStarts : List Text := ["/", "./", "../", "$/"]

def looksLikeReference (s : Text) : Bool := referenceStarts.any s.startsWith

/-- No reference starts with a character other than a slash, a point or a dollar sign. -/
theorem looksLikeReference_eq_false {s : Text}
    (h : ∀ c ∈ s.head?, c ≠ .char '/' ∧ c ≠ .char '.' ∧ c ≠ .char '$') :
    looksLikeReference s = false := by
  cases s with
  | nil => rfl
  | cons c rest =>
    obtain ⟨hslash, hpoint, hdollar⟩ := h c rfl
    simp [looksLikeReference, referenceStarts, Text.startsWith, Text.ofString, List.isPrefixOf,
      hslash.symm, hpoint.symm, hdollar.symm]

/-- The head of a block with a chance: the chance, its text, and how many characters it takes. -/
structure ChanceHead where
  chance : Nat
  label : Text
  length : Nat
  deriving Repr, DecidableEq

/-- What follows the sign or word for a chance, if the text starts with one. -/
def afterChanceSign? : Text → Option Text
  | .char '%' :: rest => some rest
  | s =>
    let word := s.take 7
    let rest := s.drop 7
    let ends := match rest with
      | [] => true
      | c :: _ => !Text.isWord c
    if word.map CodePoint.toLower = "percent" && ends then some rest else none

/-- A number and the sign or word for a chance, with one blank after it at most. -/
def chanceHead? (body : Text) : Option ChanceHead := do
  let s := Text.trimStart body
  let chance ← Text.numeral? (s.takeWhile Text.isDecimal)
  let rest ← afterChanceSign? (Text.trimStart (s.dropWhile Text.isDecimal))
  let rest := match rest with
    | c :: more => if Text.isBlank c then more else rest
    | [] => []
  let length := body.length - rest.length
  some ⟨chance, Text.trim (body.take length), length⟩

/-- What a double marker holds: a component, or a block whose inner text starts after its head. -/
inductive Marker where
  | component (c : Component)
  | block (head : ChanceHead)
  deriving Repr

def referenceAt (position : Int) (body : Text) (name : Option Text) :
    Except TemplateError Component :=
  match Reference.ofText body with
  | .ok ref => .ok (.reference ref name)
  | .error fault => .error (.malformed position (.option fault))

/-- The named value or reference in a double marker whose text without outer blanks is `@` and `s`,
where `start` is the position of `s`. -/
def namedAt (position start : Int) (s : Text) : Except TemplateError Component :=
  let (before, after) := Text.cut ':' s
  let name := Text.trim before
  if !Text.isName name then .error (.malformed position (.valueName name))
  else
    match after with
    | none => .error (.malformed position (.missingColon name))
    | some rest =>
      let start := start + (s.length - rest.length : Nat)
      let body := Text.trim rest
      if looksLikeReference body then referenceAt start body (some name)
      else
        match Dice.Expr.read rest start with
        | .ok expr => .ok (.computed name expr)
        | .error (.malformed at_ fault) => .error (.malformed at_ (.dice fault))
        | .error (.numeral run) => .error (.numeral run)

/-- A double marker whose text starts at `position`. -/
def doubleMarker (position : Int) (body : Text) : Except TemplateError Marker :=
  let lead : Nat := body.length - (Text.trimStart body).length
  match Text.trim body with
  | .char '@' :: s => (namedAt position (position + lead + 1) s).map .component
  | s =>
    if looksLikeReference s then (referenceAt (position + lead) s none).map .component
    else
      match chanceHead? body with
      | none => .error (.malformed position (.unrecognised body))
      | some head =>
        if head.chance > 100 then .error (.malformed position (.chance head.chance))
        else .ok (.block head)

/-- The number between brackets in a modifier. -/
def indexModifier? (s : Text) : Option Nat :=
  match s with
  | .char '[' :: rest =>
    match rest.reverse with
    | .char ']' :: inner => Text.numeral? (Text.trim inner.reverse)
    | _ => none
  | _ => none

def applyModifier (position : Int) (key : Text) (p : Placeholder) (modifier : Text) :
    Except TemplateError Placeholder :=
  let modifier := Text.trim modifier
  match indexModifier? modifier with
  | some n => .ok { p with index := n }
  | none =>
    let (before, after) := Text.cut '=' modifier
    let option := Text.trim before
    let value := Text.trim (after.getD [])
    if value.isEmpty then .error (.malformed position (.modifier modifier key))
    else if option = "c" then .ok { p with color := some value }
    else if option = "cbg" then .ok { p with background := some value }
    else if option = "t" then
      match TextTransform.ofName? (Text.lower value) with
      | some t => .ok { p with transform := some t }
      | none => .error (.malformed position (.transform value))
    else .error (.malformed position (.unknownModifier option key))

/-- The placeholder in a single marker whose text starts at `position`. -/
def placeholder (position : Int) (body : Text) : Except TemplateError Placeholder :=
  let (before, modifiers) := Text.cut ':' body
  let key := Text.trim before
  if !Text.isName key then .error (.malformed position (.inputKey key))
  else
    let blank : Placeholder := ⟨key, none, none, none, 0⟩
    match modifiers with
    | none => .ok blank
    | some modifiers => (Text.split ',' modifiers).foldlM (applyModifier position key) blank

end RandomTables.Template
