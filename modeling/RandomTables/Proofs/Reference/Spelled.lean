import RandomTables.Proofs.IndexPath.Spelled
import RandomTables.Proofs.Reference.Settings
import RandomTables.Proofs.Template.Inverse

/-!
# Spellings of a reference

A reference is spelled as a text, with bars between its path and its options, or as a map from the
names of the options to values, and the text can stand in a template between double brackets. In a
text every value is a text, while a map holds numbers, lists and maps; but each of them stands for
the same setting. So all three spell one reference.
-/
namespace RandomTables

/-! ## Quantities -/

namespace Quantity

/-- A variable whose name can stand in an option. -/
structure IsVariable (key : Text) : Prop where
  ne_nil : key ≠ []
  trimmed : Text.trim key = key
  noNumber : signed? key = none
  noComma : .char ',' ∉ key
  noBar : .char '|' ∉ key

instance (key : Text) : Decidable (IsVariable key) :=
  decidable_of_iff (key ≠ [] ∧ Text.trim key = key ∧ signed? key = none ∧ .char ',' ∉ key ∧
      .char '|' ∉ key)
    ⟨fun ⟨hne, htrim, hnumber, hcomma, hbar⟩ => ⟨hne, htrim, hnumber, hcomma, hbar⟩,
      fun h => ⟨h.ne_nil, h.trimmed, h.noNumber, h.noComma, h.noBar⟩⟩

/-- A number, or a variable whose name can stand in an option. -/
def Canonical : Quantity → Prop
  | fixed _ => True
  | bound key => IsVariable key

instance : (q : Quantity) → Decidable q.Canonical
  | fixed _ => .isTrue trivial
  | bound key => inferInstanceAs (Decidable (IsVariable key))

def text : Quantity → Text
  | fixed n => Text.integer n
  | bound key => key

/-- The quantity in a map or a list. -/
def value : Quantity → Document
  | fixed n => .int n
  | bound key => .text key

theorem signed?_integer (n : Int) : signed? (Text.integer n) = some n := by
  have hread := Text.numeral?_eq_some_iff.2 (Text.denotes_natural n.natAbs)
  by_cases hneg : n < 0
  · have hvalue : -(n.natAbs : Int) = n := by omega
    rw [Text.integer, if_pos hneg, signed?, hread]
    exact congrArg some hvalue
  · have hvalue : Int.ofNat n.natAbs = n := by simp; omega
    have hsigns : ∀ c ∈ Text.natural n.natAbs, c ≠ .char '-' ∧ c ≠ .char '+' := fun c hc =>
      have hdigit := Text.isDigitSign_of_mem_natural c hc
      ⟨Text.ne_of_isDigitSign hdigit (by decide +kernel),
        Text.ne_of_isDigitSign hdigit (by decide +kernel)⟩
    rw [Text.integer, if_neg hneg]
    unfold signed?
    split
    · next heq => exact absurd rfl (hsigns _ (heq ▸ List.mem_cons_self)).1
    · next heq => exact absurd rfl (hsigns _ (heq ▸ List.mem_cons_self)).2
    · rw [hread, Option.map_some, hvalue]

variable {q : Quantity}

theorem text_ne_nil (h : q.Canonical) : q.text ≠ [] := by
  cases q with
  | fixed n =>
    intro hnil
    have hread := signed?_integer n
    rw [show Text.integer n = [] from hnil] at hread
    cases hread
  | bound key => exact h.ne_nil

theorem trimmed_text (h : q.Canonical) : Text.Trimmed q.text := by
  cases q with
  | fixed n =>
    exact ⟨fun c hc => Text.isBlank_of_mem_integer (List.mem_of_mem_head? hc),
      fun c hc => Text.isBlank_of_mem_integer (List.mem_of_getLast? hc)⟩
  | bound key => exact Text.trimmed_of_trim h.trimmed

/-- Neither a comma nor a bar stands in a number. -/
theorem noSeparator_integer {n : Int} :
    .char ',' ∉ Text.integer n ∧ .char '|' ∉ Text.integer n := by
  constructor
  all_goals
    intro hmem
    rcases Text.of_mem_integer hmem with hdecimal | hminus
    · exact absurd hdecimal (by decide +kernel)
    · exact absurd hminus (by decide)

theorem noSeparator_text (h : q.Canonical) : .char ',' ∉ q.text ∧ .char '|' ∉ q.text := by
  cases q with
  | fixed n => exact noSeparator_integer
  | bound key => exact ⟨h.noComma, h.noBar⟩

theorem ofDocument_text (h : q.Canonical) : ofDocument (.text q.text) = .ok q := by
  have htrim : Text.trim q.text = q.text := Text.trim_of_trimmed (trimmed_text h)
  change ofText (Text.trim q.text) = _
  rw [htrim]
  cases q with
  | fixed n => simp only [ofText, text, signed?_integer]
  | bound key => simp only [ofText, text, h.noNumber, List.isEmpty_eq_false_iff.2 h.ne_nil]; rfl

theorem ofDocument_value (h : q.Canonical) : ofDocument q.value = .ok q := by
  cases q with
  | fixed n => rfl
  | bound key => exact ofDocument_text h

theorem value_ne_null (q : Quantity) : q.value ≠ .null := by
  cases q <;> nofun

end Quantity

/-! ## Lists of items -/

namespace Instructions

/-- Items with commas between them come apart again. -/
theorem itemsOf_joinWith {pieces : List Text}
    (h : ∀ piece ∈ pieces, piece ≠ [] ∧ Text.Trimmed piece ∧ .char ',' ∉ piece) :
    itemsOf (.text (Text.joinWith [.char ','] pieces)) = pieces.map .text := by
  have hkept : ∀ piece ∈ pieces, (!Text.allBlank piece) = true := fun piece hpiece => by
    rw [(h piece hpiece).2.1.allBlank_eq_false (h piece hpiece).1, Bool.not_false]
  change ((Text.split ',' (Text.joinWith [.char ','] pieces)).filter fun s =>
    !Text.allBlank s).map Document.text = _
  cases pieces with
  | nil => rfl
  | cons first rest =>
    rw [Text.split_joinWith (fun piece hpiece => (h piece hpiece).2.2) (List.cons_ne_nil _ _),
      List.filter_eq_self.2 hkept]

/-- Quantities that are read one by one are read as a list. -/
theorem mapM_ofDocument (write : Quantity → Document) {items : List Quantity}
    (h : ∀ q ∈ items, Quantity.ofDocument (write q) = .ok q) :
    (items.map write).mapM (fun item =>
      (Quantity.ofDocument item).mapError OptionFault.quantity) = .ok items := by
  induction items with
  | nil => rfl
  | cons q items ih =>
    obtain ⟨hq, hitems⟩ := List.forall_mem_cons.1 h
    rw [List.map_cons, List.mapM_cons, hq, ih hitems]
    rfl

/-- A name that can stand in an entry of a store. -/
structure IsStoreName (s : Text) : Prop where
  ne_nil : s ≠ []
  trimmed : Text.trim s = s
  noComma : .char ',' ∉ s
  noColon : .char ':' ∉ s
  noBar : .char '|' ∉ s

instance (s : Text) : Decidable (IsStoreName s) :=
  decidable_of_iff (s ≠ [] ∧ Text.trim s = s ∧ .char ',' ∉ s ∧ .char ':' ∉ s ∧ .char '|' ∉ s)
    ⟨fun ⟨hne, htrim, hcomma, hcolon, hbar⟩ => ⟨hne, htrim, hcomma, hcolon, hbar⟩,
      fun h => ⟨h.ne_nil, h.trimmed, h.noComma, h.noColon, h.noBar⟩⟩

def storeEntry (e : Text × Text) : Text := e.1 ++ .char ':' :: e.2

/-- An entry of a store is an item of a list, and no bar stands in it. -/
theorem item_storeEntry {e : Text × Text} (h : IsStoreName e.1 ∧ IsStoreName e.2) :
    storeEntry e ≠ [] ∧ Text.Trimmed (storeEntry e) ∧ .char ',' ∉ storeEntry e ∧
      .char '|' ∉ storeEntry e := by
  obtain ⟨htarget, hsource⟩ := h
  refine ⟨by simp [storeEntry], ?_, ?_, ?_⟩
  · exact Text.trimmed_append_cons htarget.ne_nil (Text.trimmed_of_trim htarget.trimmed).head rfl
      (Text.trimmed_of_trim hsource.trimmed).last
  · simp [storeEntry, htarget.noComma, hsource.noComma]
  · simp [storeEntry, htarget.noBar, hsource.noBar]

/-- Entries of a store are bound one after another. -/
theorem storeItems_storeEntry {entries : List (Text × Text)}
    (h : ∀ e ∈ entries, IsStoreName e.1 ∧ IsStoreName e.2) (store : Bindings Text) :
    storeItems store ((entries.map storeEntry).map .text) = .ok (store.setAll entries) := by
  induction entries generalizing store with
  | nil => rfl
  | cons e entries ih =>
    obtain ⟨⟨htarget, hsource⟩, hentries⟩ := List.forall_mem_cons.1 h
    have hcut : Text.cut ':' (Document.text (storeEntry e)).display = (e.1, some e.2) :=
      Text.cut_append_cons htarget.noColon e.2
    rw [List.map_cons, List.map_cons, storeItems, hcut]
    simp only [Option.getD_some, htarget.trimmed, hsource.trimmed,
      List.isEmpty_eq_false_iff.2 htarget.ne_nil, List.isEmpty_eq_false_iff.2 hsource.ne_nil]
    exact ih hentries (store.set e.1 e.2)

end Instructions

/-! ## Settings -/

namespace Setting
open Instructions (IsStoreName storeEntry Says Gives quantityUnder)
open Document (present?)

/-- The setting can be spelled. -/
def Canonical : Setting → Prop
  | repeats q => q.Canonical
  | dice _ => True
  | total q => q.Canonical
  | modifier q => q.Canonical
  | unique => True
  | ignore items => ∀ q ∈ items, q.Canonical
  | store entries => ∀ e ∈ entries, IsStoreName e.1 ∧ IsStoreName e.2
  | title t => Text.trim t = t ∧ .char '|' ∉ t

instance : (c : Setting) → Decidable c.Canonical
  | repeats q | total q | modifier q => inferInstanceAs (Decidable q.Canonical)
  | dice _ | unique => .isTrue trivial
  | ignore items => inferInstanceAs (Decidable (∀ q ∈ items, q.Canonical))
  | store entries =>
    inferInstanceAs (Decidable (∀ e ∈ entries, IsStoreName e.1 ∧ IsStoreName e.2))
  | title t => inferInstanceAs (Decidable (Text.trim t = t ∧ .char '|' ∉ t))

/-- What stands behind the name in a text. -/
def valueText : Setting → Text
  | repeats q => q.text
  | dice e => e.text
  | total q => q.text
  | modifier q => q.text
  | unique => []
  | ignore items => Text.joinWith [.char ','] (items.map Quantity.text)
  | store entries => Text.joinWith [.char ','] (entries.map storeEntry)
  | title t => t

def text : Setting → Text
  | unique => "unique"
  | c => c.name ++ .char '=' :: c.valueText

/-- The value that stands under the name when an option in a text has been taken apart. -/
def textValue : Setting → Document
  | unique => .scalar (.bool true)
  | c => .text c.valueText

/-- The value under the name in a map. -/
def value : Setting → Document
  | repeats q => q.value
  | dice e => .text e.text
  | total q => q.value
  | modifier q => q.value
  | unique => .scalar (.bool true)
  | ignore items => .list (items.map Quantity.value)
  | store entries => .map (entries.map fun e => (.text e.1, .text e.2))
  | title t => .text t

variable {c : Setting}

theorem quantityUnder_single {name : Text} {value : Document} {q : Quantity}
    (hset : value ≠ .null) (hread : Quantity.ofDocument value = .ok q) :
    quantityUnder [(.text name, value)] name = .ok (some q) := by
  have hpresent : present? [(.text name, value)] name = some value := by
    rw [present?, Document.entry?_cons_self]
    split
    · next h => exact absurd (Option.some.inj h) hset
    · rfl
  simp only [quantityUnder, hpresent, hread]
  rfl

theorem diceUnder_single {e : Dice.Expr} (he : e.Legible) :
    Instructions.diceUnder [(.text "dice", .text e.text)] = .ok (some e.signed) := by
  have hread : Dice.Expr.read (Document.text e.text).display 0 = .ok e.signed :=
    Dice.Expr.read_text_eq_ok_iff.2 ⟨he, rfl⟩
  simp only [Instructions.diceUnder, present?, Document.entry?_cons_self, hread]
  rfl

/-- In a map, the value stands for what the setting is read as. -/
theorem says_value (h : c.Canonical) (hlegible : c.Legible) : Says c.value c.signed := by
  intro i
  cases c with
  | repeats q | total q | modifier q =>
    exact quantityUnder_single q.value_ne_null (Quantity.ofDocument_value h)
  | dice e => exact diceUnder_single hlegible
  | unique => rfl
  | ignore items =>
    have hread := Instructions.mapM_ofDocument _ fun q hq => Quantity.ofDocument_value (h q hq)
    simp only [Gives, signed, name, kind, Kind.name, Document.entry?_cons_self]
    exact hread
  | store entries =>
    have hdisplay : (entries.map fun e => (Scalar.text e.1, Document.text e.2)).map
        (fun e => (e.1.display, e.2.display)) = entries := by
      rw [List.map_map]
      exact List.map_id entries
    simp only [Gives, signed, name, kind, Kind.name, Document.entry?_cons_self]
    exact congrArg (fun es => Except.ok (Bindings.ofList es)) hdisplay
  | title t => rfl

/-- In a text, what is left of the option stands for it too. -/
theorem says_textValue (h : c.Canonical) (hlegible : c.Legible) : Says c.textValue c.signed := by
  intro i
  cases c with
  | repeats q | total q | modifier q =>
    exact quantityUnder_single nofun (Quantity.ofDocument_text h)
  | dice e => exact diceUnder_single hlegible
  | unique => rfl
  | ignore items =>
    have hread := Instructions.mapM_ofDocument (fun q => .text q.text) fun q hq =>
      Quantity.ofDocument_text (h q hq)
    have hitems : ∀ piece ∈ items.map Quantity.text,
        piece ≠ [] ∧ Text.Trimmed piece ∧ .char ',' ∉ piece := by
      intro piece hpiece
      obtain ⟨q, hq, rfl⟩ := List.mem_map.1 hpiece
      exact ⟨Quantity.text_ne_nil (h q hq), Quantity.trimmed_text (h q hq),
        (Quantity.noSeparator_text (h q hq)).1⟩
    simp only [Gives, signed, name, kind, Kind.name, Document.entry?_cons_self, Option.getD_some, textValue,
      valueText, Instructions.itemsOf_joinWith hitems, List.map_map]
    exact hread
  | store entries =>
    have hitems : ∀ piece ∈ entries.map storeEntry,
        piece ≠ [] ∧ Text.Trimmed piece ∧ .char ',' ∉ piece := by
      intro piece hpiece
      obtain ⟨e, he, rfl⟩ := List.mem_map.1 hpiece
      obtain ⟨hne, htrimmed, hcomma, _⟩ := Instructions.item_storeEntry (h e he)
      exact ⟨hne, htrimmed, hcomma⟩
    simp only [Gives, signed, name, kind, Kind.name, Document.entry?_cons_self, Option.getD_some, textValue,
      valueText, Instructions.storeOf, Instructions.itemsOf_joinWith hitems]
    exact Instructions.storeItems_storeEntry h .empty
  | title t => rfl

theorem trimmed_valueText (h : c.Canonical) : Text.Trimmed c.valueText := by
  cases c with
  | repeats q | total q | modifier q => exact Quantity.trimmed_text h
  | dice e =>
    exact ⟨fun c hc => Template.isBlank_of_mem_text c (List.mem_of_mem_head? hc),
      fun c hc => Template.isBlank_of_mem_text c (List.mem_of_getLast? hc)⟩
  | unique => exact ⟨nofun, nofun⟩
  | ignore items =>
    refine Text.trimmed_joinWith rfl fun piece hpiece => ?_
    obtain ⟨q, hq, rfl⟩ := List.mem_map.1 hpiece
    exact ⟨Quantity.text_ne_nil (h q hq), Quantity.trimmed_text (h q hq)⟩
  | store entries =>
    refine Text.trimmed_joinWith rfl fun piece hpiece => ?_
    obtain ⟨e, he, rfl⟩ := List.mem_map.1 hpiece
    obtain ⟨hne, htrimmed, _⟩ := Instructions.item_storeEntry (h e he)
    exact ⟨hne, htrimmed⟩
  | title t => exact Text.trimmed_of_trim h.1

theorem noBar_valueText (h : c.Canonical) : .char '|' ∉ c.valueText := by
  have hjoined : ∀ {pieces : List Text}, (∀ piece ∈ pieces, .char '|' ∉ piece) →
      .char '|' ∉ Text.joinWith [.char ','] pieces := fun hpieces hmem => by
    obtain ⟨piece, hpiece, hmem⟩ := (Text.mem_joinWith_iff (by decide)).1 hmem
    exact hpieces piece hpiece hmem
  cases c with
  | repeats q | total q | modifier q => exact (Quantity.noSeparator_text h).2
  | dice e =>
    intro hmem
    rcases Dice.Expr.sign_of_mem_text _ hmem with hdigit | hsign
    · exact absurd hdigit (by decide +kernel)
    · exact absurd hsign (by decide)
  | unique => exact List.not_mem_nil
  | ignore items =>
    refine hjoined fun piece hpiece => ?_
    obtain ⟨q, hq, rfl⟩ := List.mem_map.1 hpiece
    exact (Quantity.noSeparator_text (h q hq)).2
  | store entries =>
    refine hjoined fun piece hpiece => ?_
    obtain ⟨e, he, rfl⟩ := List.mem_map.1 hpiece
    exact (Instructions.item_storeEntry (h e he)).2.2.2
  | title t => exact h.2

/-- An option's name has neither blanks nor separators in it. -/
theorem Kind.name_plain (k : Kind) : k.name ≠ [] ∧ Text.Trimmed k.name ∧
    .char '=' ∉ k.name ∧ .char '|' ∉ k.name := by
  have htrim : Text.trim k.name = k.name := by cases k <;> decide
  refine ⟨?_, Text.trimmed_of_trim htrim, ?_, ?_⟩ <;> cases k <;> decide

/-- A setting other than a switch is spelled with its value behind its name. -/
theorem text_eq (h : c ≠ .unique) : c.text = c.name ++ .char '=' :: c.valueText ∧
    c.textValue = .text c.valueText := by
  cases c with
  | unique => exact absurd rfl h
  | _ => exact ⟨rfl, rfl⟩

theorem trimmed_text (h : c.Canonical) : Text.Trimmed c.text := by
  obtain ⟨hne, hname, _⟩ := c.kind.name_plain
  by_cases hunique : c = .unique
  · subst hunique
    exact hname
  · rw [(text_eq hunique).1]
    exact Text.trimmed_append_cons hne hname.head rfl (trimmed_valueText h).last

theorem text_ne_nil : c.text ≠ [] := by
  by_cases hunique : c = .unique
  · subst hunique
    nofun
  · rw [(text_eq hunique).1]
    simp

theorem noBar_text (h : c.Canonical) : .char '|' ∉ c.text := by
  obtain ⟨_, _, _, hname⟩ := c.kind.name_plain
  by_cases hunique : c = .unique
  · subst hunique
    exact hname
  · rw [(text_eq hunique).1]
    simp [name, hname, noBar_valueText h]

/-- An option is taken apart into its name and its value. -/
theorem optionOf?_text (h : c.Canonical) :
    Reference.optionOf? c.text = some (.text c.name, c.textValue) := by
  obtain ⟨hne, hname, hequals, _⟩ := c.kind.name_plain
  have htext := Text.trim_of_trimmed (trimmed_text h)
  by_cases hunique : c = .unique
  · subst hunique
    rfl
  · obtain ⟨heq, hvalue⟩ := text_eq hunique
    have hcut : Text.cut '=' c.text = (c.name, some c.valueText) := by
      rw [heq]
      exact Text.cut_append_cons hequals _
    have hfilled : c.text.isEmpty = false := List.isEmpty_eq_false_iff.2 text_ne_nil
    have htrim : Text.trim c.name = c.name := Text.trim_of_trimmed hname
    simp only [Reference.optionOf?, htext, hfilled, hcut, htrim,
      Text.trim_of_trimmed (trimmed_valueText h), hvalue]
    rfl

end Setting
end RandomTables
