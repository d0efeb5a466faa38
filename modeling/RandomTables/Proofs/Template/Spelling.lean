import RandomTables.Proofs.Template.Balanced
import RandomTables.Proofs.Text.Numeral
import RandomTables.Proofs.Text.Pieces
import RandomTables.Template.Reader

/-!
# The spelling of templates

Components are spelled one after another: plain text with a backslash before every character that
would mean something else, and everything else between brackets. Components are canonical if such a
spelling can stand for them: no plain text is empty or stands next to another one, keys, names,
colors and paths have no outer blanks and no characters that would end them early, and references
have no options. The spelling of canonical components is balanced, and so is what stands between
each pair of brackets in it.
-/
namespace RandomTables

namespace Template

/-- The text with a backslash before every bracket and every backslash. -/
def escaped : Text → Text
  | [] => []
  | c :: rest =>
    if isEscapable c then .char '\\' :: c :: escaped rest else c :: escaped rest

/-- A value or path with a name in front of it. -/
def named (name s : Text) : Text := .char '@' :: name ++ .char ':' :: s

def chanceLabel (chance : Nat) : Text := Text.natural chance ++ [.char '%']

/-- A text with its chance in front of it. -/
def chanced (chance : Nat) (s : Text) : Text := chanceLabel chance ++ .char ' ' :: s

/-- What a placeholder says besides its key. -/
inductive Modifier where
  | color (value : Text)
  | background (value : Text)
  | transform (transform : TextTransform)
  | index (n : Nat)

namespace Modifier

def text : Modifier → Text
  | color value => "c" ++ .char '=' :: value
  | background value => "cbg" ++ .char '=' :: value
  | transform t => "t" ++ .char '=' :: t.name
  | index n => single (Text.natural n)

def apply (p : Placeholder) : Modifier → Placeholder
  | color value => { p with color := some value }
  | background value => { p with background := some value }
  | transform t => { p with transform := some t }
  | index n => { p with index := n }

end Modifier
end Template

open Template (Modifier escaped named chanceLabel chanced single double)

/-- What the placeholder says besides its key. The first number goes without saying. -/
def Placeholder.modifiers (p : Placeholder) : List Modifier :=
  (p.color.map Modifier.color).toList ++ (p.background.map Modifier.background).toList ++
    (p.transform.map Modifier.transform).toList ++ if p.index = 0 then [] else [.index p.index]

/-- The spelling of a placeholder without its brackets. -/
def Placeholder.body (p : Placeholder) : Text :=
  match p.modifiers with
  | [] => p.key
  | modifiers => p.key ++ .char ':' :: Text.joinWith [.char ','] (modifiers.map Modifier.text)

namespace Component

mutual

def text : Component → Text
  | .plain text => escaped text
  | .input p => single p.body
  | .computed name expr => double (named name expr.text)
  | .percent chance _ inner => double (chanced chance (textAll inner))
  | .reference ref none => double ref.path
  | .reference ref (some name) => double (named name ref.path)

def textAll : List Component → Text
  | [] => []
  | c :: rest => c.text ++ textAll rest

end

end Component

/-! ## Canonical components -/

/-- The text can stand for a key or name as it is. -/
structure Text.IsKey (s : Text) : Prop where
  isName : Text.isName s
  trimmed : Text.trim s = s

instance (s : Text) : Decidable s.IsKey :=
  decidable_of_iff (Text.isName s ∧ Text.trim s = s) ⟨fun ⟨hname, htrim⟩ => ⟨hname, htrim⟩,
    fun ⟨hname, htrim⟩ => ⟨hname, htrim⟩⟩

/-- The text can stand for a color as it is. -/
structure Text.IsColor (s : Text) : Prop where
  ne_nil : s ≠ []
  trimmed : Text.trim s = s
  unmarked : ∀ c ∈ s, Template.IsUnmarked c
  noComma : .char ',' ∉ s

instance (s : Text) : Decidable s.IsColor :=
  decidable_of_iff (s ≠ [] ∧ Text.trim s = s ∧ (∀ c ∈ s, Template.IsUnmarked c) ∧ .char ',' ∉ s)
    ⟨fun ⟨hne, htrim, hunmarked, hcomma⟩ => ⟨hne, htrim, hunmarked, hcomma⟩,
      fun ⟨hne, htrim, hunmarked, hcomma⟩ => ⟨hne, htrim, hunmarked, hcomma⟩⟩

/-- The placeholder's key and colors can stand as they are. -/
structure Placeholder.Canonical (p : Placeholder) : Prop where
  key : p.key.IsKey
  color : ∀ value ∈ p.color, value.IsColor
  background : ∀ value ∈ p.background, value.IsColor

instance (p : Placeholder) : Decidable p.Canonical :=
  decidable_of_iff (p.key.IsKey ∧ (∀ value ∈ p.color, value.IsColor) ∧
      ∀ value ∈ p.background, value.IsColor)
    ⟨fun ⟨hkey, hcolor, hbackground⟩ => ⟨hkey, hcolor, hbackground⟩,
      fun ⟨hkey, hcolor, hbackground⟩ => ⟨hkey, hcolor, hbackground⟩⟩

/-- The reference has no options, and its path can stand as it is. -/
structure Reference.Canonical (r : Reference) : Prop where
  plain : r.instructions = .plain
  start : Template.looksLikeReference r.path
  trimmed : Text.trim r.path = r.path
  unmarked : ∀ c ∈ r.path, Template.IsUnmarked c
  noBar : .char '|' ∉ r.path

instance (r : Reference) : Decidable r.Canonical :=
  decidable_of_iff (r.instructions = .plain ∧ Template.looksLikeReference r.path ∧
      Text.trim r.path = r.path ∧ (∀ c ∈ r.path, Template.IsUnmarked c) ∧ .char '|' ∉ r.path)
    ⟨fun ⟨hplain, hstart, htrim, hunmarked, hbar⟩ => ⟨hplain, hstart, htrim, hunmarked, hbar⟩,
      fun ⟨hplain, hstart, htrim, hunmarked, hbar⟩ => ⟨hplain, hstart, htrim, hunmarked, hbar⟩⟩

namespace Component

def StartsPlain : List Component → Prop
  | .plain _ :: _ => True
  | _ => False

mutual

def Canonical : Component → Prop
  | .plain text => text ≠ [] ∧ .char '\n' ∉ text
  | .input p => p.Canonical
  | .computed name _ => name.IsKey
  | .percent chance label inner =>
    chance ≤ 100 ∧ label = chanceLabel chance ∧ CanonicalAll inner
  | .reference ref name => ref.Canonical ∧ ∀ n ∈ name, n.IsKey

/-- The components can be spelled, and no plain text follows another one. -/
def CanonicalAll : List Component → Prop
  | [] => True
  | c :: rest => c.Canonical ∧ (StartsPlain [c] → ¬ StartsPlain rest) ∧ CanonicalAll rest

end

instance : (cs : List Component) → Decidable (StartsPlain cs)
  | .plain _ :: _ => .isTrue trivial
  | [] | .input _ :: _ | .computed _ _ :: _ | .percent _ _ _ :: _ | .reference _ _ :: _ =>
    .isFalse id

mutual

instance decidableCanonical : (c : Component) → Decidable c.Canonical
  | .plain text => inferInstanceAs (Decidable (text ≠ [] ∧ .char '\n' ∉ text))
  | .input p => inferInstanceAs (Decidable p.Canonical)
  | .computed name _ => inferInstanceAs (Decidable name.IsKey)
  | .percent chance label inner =>
    have := decidableCanonicalAll inner
    inferInstanceAs (Decidable (chance ≤ 100 ∧ label = chanceLabel chance ∧ CanonicalAll inner))
  | .reference ref name => inferInstanceAs (Decidable (ref.Canonical ∧ ∀ n ∈ name, n.IsKey))

instance decidableCanonicalAll : (cs : List Component) → Decidable (CanonicalAll cs)
  | [] => .isTrue trivial
  | c :: rest =>
    have := decidableCanonical c
    have := decidableCanonicalAll rest
    inferInstanceAs (Decidable
      (c.Canonical ∧ (StartsPlain [c] → ¬ StartsPlain rest) ∧ CanonicalAll rest))

end

end Component

/-! ## What stands in a spelling -/

namespace Text
open Template (IsUnmarked)

/-- A character of a name is none of those that cannot stand in one. -/
theorem ne_of_isNamePart {c : CodePoint} (hc : isNamePart c) {special : Char}
    (hspecial : isNamePart special = false) : c ≠ .char special := by
  rintro rfl
  rw [hspecial] at hc
  cases hc

theorem isNamePart_of_isNameStart {c : CodePoint} (h : isNameStart c) : isNamePart c := by
  have hletter : c.isAlpha → c.isAlphanum := by
    intro halpha
    cases c with
    | char c => exact Bool.or_eq_true_iff.2 (.inl halpha)
    | half => cases halpha
  rw [isNameStart, Bool.or_eq_true] at h
  rw [isNamePart, isWord]
  rcases h with h | h
  · simp only [hletter h, Bool.true_or]
  · simp only [h, Bool.true_or, Bool.or_true]

theorem IsKey.isNamePart {s : Text} (h : s.IsKey) : ∀ c ∈ s, isNamePart c := by
  have hname := h.isName
  cases s with
  | nil => exact nofun
  | cons c s =>
    obtain ⟨hstart, hrest⟩ := Bool.and_eq_true_iff.1 hname
    intro d hd
    rcases List.mem_cons.1 hd with rfl | hd
    · exact isNamePart_of_isNameStart hstart
    · exact List.all_eq_true.1 hrest d hd

theorem IsKey.unmarked {s : Text} (h : s.IsKey) : ∀ c ∈ s, IsUnmarked c := fun c hc =>
  have hpart := h.isNamePart c hc
  ⟨ne_of_isNamePart hpart (by decide +kernel), ne_of_isNamePart hpart (by decide +kernel),
    ne_of_isNamePart hpart (by decide +kernel), ne_of_isNamePart hpart (by decide +kernel)⟩

theorem IsKey.noColon {s : Text} (h : s.IsKey) : .char ':' ∉ s := fun hmem =>
  ne_of_isNamePart (h.isNamePart _ hmem) (by decide +kernel) rfl

theorem isDigitSign_of_mem_natural {n : Nat} : ∀ c ∈ natural n, isDigitSign c := fun c hc =>
  isDigitSign_of_isDecimal ((denotes_natural n).isDecimal c hc)

end Text

/-- The signs of a dice expression are digits, operators, the letter of dice, and parentheses. -/
theorem Dice.Expr.sign_of_mem_text {e : Dice.Expr} :
    ∀ c ∈ e.text, Text.isDigitSign c ∨ c ∈ ("+-*d()" : Text) := by
  have hnumber : ∀ n : Int, ∀ c ∈ Text.integer n, Text.isDigitSign c ∨ c ∈ ("+-*d()" : Text) := by
    intro n c hc
    rcases Text.of_mem_integer hc with hdecimal | rfl
    · exact .inl (Text.isDigitSign_of_isDecimal hdecimal)
    · exact .inr (by decide)
  have hsigns : ∀ s : Text, (∀ c ∈ s, c ∈ ("+-*d()" : Text)) →
      ∀ c ∈ s, Text.isDigitSign c ∨ c ∈ ("+-*d()" : Text) := fun s hs c hc => .inr (hs c hc)
  induction e with
  | constant value => exact hnumber value
  | dice count sides negative =>
    have hminus : ∀ c ∈ Text.ofString (if negative then "-" else ""), c ∈ ("+-*d()" : Text) := by
      cases negative <;> decide
    simp only [text, List.forall_mem_append]
    exact ⟨⟨⟨hsigns _ hminus, hnumber count⟩, hsigns _ (by decide)⟩, hnumber sides⟩
  | join op left right hleft hright =>
    have hop : op.sign ∈ ("+-*d()" : Text) := by cases op <;> decide
    simp only [text, List.forall_mem_append, List.forall_mem_cons]
    refine ⟨hleft, .inr hop, ?_⟩
    split
    · simp only [List.forall_mem_append]
      exact ⟨⟨hsigns _ (by decide), hright⟩, hsigns _ (by decide)⟩
    · exact hright

theorem Dice.Expr.unmarked_text {e : Dice.Expr} : ∀ c ∈ e.text, Template.IsUnmarked c := by
  have hsigns : ∀ c ∈ ("+-*d()" : Text), Template.IsUnmarked c := by decide
  intro c hc
  rcases sign_of_mem_text c hc with hdigit | hsign
  · exact Template.isUnmarked_of_isDigitSign hdigit
  · exact hsigns c hsign

/-! ## Spellings are balanced -/

namespace Template
open Component (CanonicalAll textAll)

theorem balanced_escaped {s : Text} (h : .char '\n' ∉ s) : Balanced (escaped s) := by
  induction s with
  | nil => exact .nil
  | cons c s ih =>
    have hrest := ih (List.not_mem_of_not_mem_cons h)
    rw [escaped]
    split
    · exact (Balanced.hidden c).append hrest
    · next hplain =>
      refine (Balanced.unmarked (c := c) ?_).append hrest
      have hnewline : c ≠ .char '\n' := (List.ne_of_not_mem_cons h).symm
      simp only [isEscapable, Bool.or_eq_true, beq_iff_eq, not_or] at hplain
      exact ⟨hnewline, hplain.2, hplain.1.1, hplain.1.2⟩

theorem balanced_named {name s : Text} (hname : name.IsKey) (hs : ∀ c ∈ s, IsUnmarked c) :
    Balanced (named name s) := by
  refine .of_unmarked ?_
  simp only [named, List.cons_append, List.forall_mem_cons, List.forall_mem_append]
  exact ⟨by decide, hname.unmarked, by decide, hs⟩

/-- The color of a modifier can stand as it is. -/
def Modifier.Canonical : Modifier → Prop
  | color value => value.IsColor
  | background value => value.IsColor
  | transform _ => True
  | index _ => True

theorem canonical_of_mem_modifiers {p : Placeholder} (h : p.Canonical) :
    ∀ m ∈ p.modifiers, m.Canonical := by
  obtain ⟨key, color, background, transform, index⟩ := p
  intro m hm
  simp only [Placeholder.modifiers, List.mem_append, Option.mem_toList, Option.map_eq_some_iff]
    at hm
  rcases hm with ((⟨value, hvalue, rfl⟩ | ⟨value, hvalue, rfl⟩) | ⟨t, _, rfl⟩) | hm
  · exact h.color value hvalue
  · exact h.background value hvalue
  · trivial
  · split at hm
    · cases hm
    · obtain rfl := List.mem_singleton.1 hm
      trivial

theorem balanced_modifier {m : Modifier} (h : m.Canonical) : Balanced m.text := by
  cases m with
  | color value | background value =>
    refine .of_unmarked (List.forall_mem_append.2 ⟨by decide, ?_⟩)
    exact List.forall_mem_cons.2 ⟨by decide, Text.IsColor.unmarked h⟩
  | transform t => exact .of_unmarked (by cases t <;> decide)
  | index n =>
    refine .single (.of_unmarked fun c hc => ?_) fun c hc => ?_
    · exact isUnmarked_of_isDigitSign (Text.isDigitSign_of_mem_natural c hc)
    · have hdigit := Text.isDigitSign_of_mem_natural c (List.mem_of_mem_head? hc)
      exact (isUnmarked_of_isDigitSign hdigit).2.2.1

theorem balanced_joinWith {sep : CodePoint} (hsep : IsUnmarked sep) {pieces : List Text}
    (h : ∀ piece ∈ pieces, Balanced piece) : Balanced (Text.joinWith [sep] pieces) := by
  fun_induction Text.joinWith [sep] pieces with
  | case1 => exact .nil
  | case2 piece => exact h piece (List.mem_singleton_self piece)
  | case3 piece pieces _ ih =>
    obtain ⟨hpiece, hpieces⟩ := List.forall_mem_cons.1 h
    exact (hpiece.append (.unmarked hsep)).append (ih hpieces)

/-- The spelling of a placeholder starts as its key does. -/
theorem exists_body_eq (p : Placeholder) : ∃ rest, p.body = p.key ++ rest := by
  unfold Placeholder.body
  split
  · exact ⟨[], (List.append_nil _).symm⟩
  · exact ⟨_, rfl⟩

theorem balanced_body {p : Placeholder} (h : p.Canonical) : Balanced p.body := by
  have hkey : Balanced p.key := .of_unmarked h.key.unmarked
  unfold Placeholder.body
  split
  · exact hkey
  · refine hkey.append ((Balanced.unmarked (by decide)).append (balanced_joinWith (by decide) ?_))
    intro piece hpiece
    obtain ⟨m, hm, rfl⟩ := List.mem_map.1 hpiece
    exact balanced_modifier (canonical_of_mem_modifiers h m hm)

theorem head_body {p : Placeholder} (h : p.Canonical) : ∀ c ∈ p.body.head?, c ≠ .char '[' := by
  obtain ⟨rest, hbody⟩ := exists_body_eq p
  have hname := h.key.isName
  have hunmarked := h.key.unmarked
  rw [hbody]
  cases hkey : p.key with
  | nil =>
    rw [hkey] at hname
    cases hname
  | cons c key =>
    rw [hkey] at hunmarked
    intro d hd
    obtain rfl := Option.some.inj hd
    exact (hunmarked _ (List.mem_cons_self ..)).2.2.1

theorem balanced_chanced {chance : Nat} {s : Text} (h : Balanced s) :
    Balanced (chanced chance s) := by
  have hlabel : Balanced (chanceLabel chance) := by
    refine .of_unmarked (List.forall_mem_append.2 ⟨fun c hc => ?_, by decide⟩)
    exact isUnmarked_of_isDigitSign (Text.isDigitSign_of_mem_natural c hc)
  exact hlabel.append ((Balanced.unmarked (by decide)).append h)

/-- The spelling of canonical components is balanced. -/
theorem balanced_textAll : (cs : List Component) → CanonicalAll cs → Balanced (textAll cs)
  | [], _ => .nil
  | .plain text :: rest, ⟨⟨_, hline⟩, _, hrest⟩ =>
    (balanced_escaped hline).append (balanced_textAll rest hrest)
  | .input p :: rest, ⟨hp, _, hrest⟩ =>
    (Balanced.single (balanced_body hp) (head_body hp)).append (balanced_textAll rest hrest)
  | .computed name expr :: rest, ⟨hname, _, hrest⟩ =>
    (balanced_named hname Dice.Expr.unmarked_text).double.append (balanced_textAll rest hrest)
  | .percent _ _ inner :: rest, ⟨⟨_, _, hinner⟩, _, hrest⟩ =>
    (balanced_chanced (balanced_textAll inner hinner)).double.append (balanced_textAll rest hrest)
  | .reference ref none :: rest, ⟨⟨href, _⟩, _, hrest⟩ =>
    (Balanced.of_unmarked href.unmarked).double.append (balanced_textAll rest hrest)
  | .reference ref (some name) :: rest, ⟨⟨href, hname⟩, _, hrest⟩ =>
    (balanced_named (hname name rfl) href.unmarked).double.append (balanced_textAll rest hrest)
termination_by cs => sizeOf cs

end Template
end RandomTables
