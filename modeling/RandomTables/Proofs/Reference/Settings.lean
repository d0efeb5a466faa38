import Mathlib.Data.List.Nodup
import Mathlib.Data.List.Perm.Basic
import RandomTables.Proofs.Definition.Sides
import RandomTables.Proofs.Dice.Legible

/-!
# Settings

Instructions are put together of settings: each option of a reference sets one part of them. The
parts are read from the options independently of each other, each from the value under its own
name; so it suffices to know of each value by itself which setting it stands for, and the order of
the options has no influence.
-/
namespace RandomTables

/-! ## Values under their names -/

namespace Document
variable {entries : List (Scalar × Document)} {name other : Text} {value : Document}

theorem entry?_cons_self : entry? ((.text name, value) :: entries) name = some value := by
  simp [Document.entry?]

theorem entry?_cons_of_ne (h : name ≠ other) :
    entry? ((.text name, value) :: entries) other = entry? entries other := by
  simp [Document.entry?, h]

end Document

/-! ## Settings -/

/-- One part of the instructions, with the value it is set to. -/
inductive Setting where
  | repeats (q : Quantity)
  | dice (e : Dice.Expr)
  | total (q : Quantity)
  | modifier (q : Quantity)
  | unique
  | ignore (items : List Quantity)
  | store (entries : List (Text × Text))
  | title (t : Text)
  deriving DecidableEq

namespace Setting

/-- The parts of the instructions that can be set. -/
inductive Kind where
  | repeats
  | dice
  | total
  | modifier
  | unique
  | ignore
  | store
  | title
  deriving DecidableEq

/-- The name of the option that sets the part. -/
def Kind.name : Kind → Text
  | repeats => "roll"
  | dice => "dice"
  | total => "total"
  | modifier => "modifier"
  | unique => "unique"
  | ignore => "ignore"
  | store => "store"
  | title => "title"

/-- What is set. -/
def kind : Setting → Kind
  | repeats _ => .repeats
  | dice _ => .dice
  | total _ => .total
  | modifier _ => .modifier
  | unique => .unique
  | ignore _ => .ignore
  | store _ => .store
  | title _ => .title

def name (c : Setting) : Text := c.kind.name

/-- The instructions with the part set. -/
def apply : Setting → Instructions → Instructions
  | repeats q, i => { i with repeats := some q }
  | dice e, i => { i with dice := some e }
  | total q, i => { i with total := some q }
  | modifier q, i => { i with modifier := some q }
  | unique, i => { i with unique := true }
  | ignore items, i => { i with ignore := items }
  | store entries, i => { i with store := .ofList entries }
  | title t, i => { i with title := some t }

/-- The spelling of the dice that the setting asks for, if any, is read. -/
def Legible : Setting → Prop
  | dice e => e.Legible
  | _ => True

/-- The dice that the setting asks for, if any, are regular. -/
def Regular : Setting → Prop
  | dice e => e.Regular
  | _ => True

/-- What the setting is read as: a minus in front of a number of dice is taken for their sign. -/
def signed : Setting → Setting
  | dice e => dice e.signed
  | c => c

theorem Kind.name_inj {k l : Kind} : k.name = l.name ↔ k = l := by
  cases k <;> cases l <;> decide

theorem Kind.name_mem (k : Kind) : k.name ∈ Instructions.optionNames := by
  cases k <;> decide

theorem Kind.name_ne_path (k : Kind) : k.name ≠ "path" := by
  cases k <;> decide

@[simp] theorem kind_signed (c : Setting) : c.signed.kind = c.kind := by
  cases c <;> rfl

@[simp] theorem name_signed (c : Setting) : c.signed.name = c.name :=
  congrArg Kind.name c.kind_signed

theorem map_name_signed (settings : List Setting) :
    (settings.map signed).map name = settings.map name := by
  simp

theorem Regular.legible {c : Setting} (h : c.Regular) : c.Legible := by
  cases c with
  | dice e => exact Dice.Expr.Regular.legible h
  | _ => trivial

theorem Regular.signed_eq {c : Setting} (h : c.Regular) : c.signed = c := by
  cases c with
  | dice e => exact congrArg dice ((Dice.Expr.signed_eq_iff h.legible).2 h)
  | _ => rfl

/-- Different parts can be set in any order. -/
theorem apply_comm {c d : Setting} (h : c.kind ≠ d.kind) (i : Instructions) :
    c.apply (d.apply i) = d.apply (c.apply i) := by
  cases c <;> cases d <;> first | rfl | exact absurd rfl h

end Setting

/-! ## What options give -/

namespace Instructions
open Document (present?)
open Setting (Kind)
variable {options options' : List (Scalar × Document)} {i : Instructions} {k : Kind} {c : Setting}
  {value : Document}

/-- What the options give for one part of the instructions is in these instructions. -/
def Gives (options : List (Scalar × Document)) (i : Instructions) : Kind → Prop
  | .repeats => quantityUnder options "roll" = .ok i.repeats
  | .dice => diceUnder options = .ok i.dice
  | .total => quantityUnder options "total" = .ok i.total
  | .modifier => quantityUnder options "modifier" = .ok i.modifier
  | .unique => ((Document.entry? options "unique").map saysYes).getD false = i.unique
  | .ignore => (itemsOf ((Document.entry? options "ignore").getD .null)).mapM (fun item =>
      (Quantity.ofDocument item).mapError OptionFault.quantity) = .ok i.ignore
  | .store => storeOf ((Document.entry? options "store").getD .null) = .ok i.store
  | .title => (present? options "title").map Document.display = i.title

/-- Options with known names describe the instructions in which each part is what they give. -/
theorem ofOptions_eq_ok_iff :
    ofOptions options = .ok i ↔ unknownNames options = .ok () ∧ ∀ k, Gives options i k := by
  unfold ofOptions
  constructor
  · intro h
    obtain ⟨_, hnames, h⟩ := bind_eq_ok_iff.1 h
    obtain ⟨repeats, hrepeats, h⟩ := bind_eq_ok_iff.1 h
    obtain ⟨dice, hdice, h⟩ := bind_eq_ok_iff.1 h
    obtain ⟨total, htotal, h⟩ := bind_eq_ok_iff.1 h
    obtain ⟨modifier, hmodifier, h⟩ := bind_eq_ok_iff.1 h
    obtain ⟨ignore, hignore, h⟩ := bind_eq_ok_iff.1 h
    obtain ⟨store, hstore, h⟩ := bind_eq_ok_iff.1 h
    obtain rfl := Except.ok.inj h
    refine ⟨hnames, fun k => ?_⟩
    cases k with
    | repeats => exact hrepeats
    | dice => exact hdice
    | total => exact htotal
    | modifier => exact hmodifier
    | unique => rfl
    | ignore => exact hignore
    | store => exact hstore
    | title => rfl
  · rintro ⟨hnames, h⟩
    refine bind_eq_ok_iff.2 ⟨(), hnames, ?_⟩
    refine bind_eq_ok_iff.2 ⟨_, h .repeats, ?_⟩
    refine bind_eq_ok_iff.2 ⟨_, h .dice, ?_⟩
    refine bind_eq_ok_iff.2 ⟨_, h .total, ?_⟩
    refine bind_eq_ok_iff.2 ⟨_, h .modifier, ?_⟩
    refine bind_eq_ok_iff.2 ⟨_, h .ignore, ?_⟩
    refine bind_eq_ok_iff.2 ⟨_, h .store, ?_⟩
    have hunique : _ = i.unique := h .unique
    have htitle : _ = i.title := h .title
    rw [hunique, htitle]
    rfl

/-- Each part is read from the value under its name alone. -/
theorem gives_congr (h : Document.entry? options k.name = Document.entry? options' k.name) :
    Gives options i k ↔ Gives options' i k := by
  cases k <;> simp only [Kind.name] at h <;>
    simp only [Gives, quantityUnder, diceUnder, present?, h]

/-- Setting a part leaves the others as they are. -/
theorem gives_apply_of_ne (h : k ≠ c.kind) : Gives options (c.apply i) k ↔ Gives options i k := by
  cases c <;> cases k <;> first | rfl | exact absurd rfl h

theorem gives_plain (k : Kind) : Gives [] plain k := by
  cases k <;> rfl

/-- The value stands for the setting: where there is no other value, it gives this and no more. -/
def Says (value : Document) (c : Setting) : Prop :=
  ∀ i, Gives [(.text c.name, value)] (c.apply i) c.kind

theorem unknownNames_cons (k : Kind) (value : Document) (options : List (Scalar × Document)) :
    unknownNames ((.text k.name, value) :: options) = unknownNames options := by
  have hknown : (!optionNames.any fun name => Scalar.text k.name == .text name) = false := by
    simpa using k.name_mem
  unfold unknownNames
  rw [List.map_cons, List.filter_cons_of_neg (by simp [hknown])]

/-- An option in front of others sets its part of what they describe. -/
theorem ofOptions_cons (h : ofOptions options = .ok i) (hmeans : Says value c) :
    ofOptions ((.text c.name, value) :: options) = .ok (c.apply i) := by
  obtain ⟨hnames, hgives⟩ := ofOptions_eq_ok_iff.1 h
  refine ofOptions_eq_ok_iff.2 ⟨(unknownNames_cons c.kind value options).trans hnames, fun k => ?_⟩
  by_cases hk : k = c.kind
  · subst hk
    refine (gives_congr ?_).2 (hmeans i)
    exact Document.entry?_cons_self.trans Document.entry?_cons_self.symm
  · rw [gives_apply_of_ne hk]
    refine (gives_congr (Document.entry?_cons_of_ne ?_)).2 (hgives k)
    exact fun hname => hk (Setting.Kind.name_inj.1 hname).symm

/-- Settings under their names, with the values that they are written as. -/
def optionsFor (value : Setting → Document) (settings : List Setting) : List (Scalar × Document) :=
  settings.map fun c => (.text c.name, value c)

section OptionsFor
variable {value : Setting → Document} {settings : List Setting}

theorem optionsFor_cons (c : Setting) (settings : List Setting) :
    optionsFor value (c :: settings) = (.text c.name, value c) :: optionsFor value settings := rfl

theorem optionsFor_append (settings settings' : List Setting) :
    optionsFor value (settings ++ settings') =
      optionsFor value settings ++ optionsFor value settings' := List.map_append

theorem entry?_optionsFor (hnames : (settings.map Setting.name).Nodup) (hc : c ∈ settings) :
    Document.entry? (optionsFor value settings) c.name = some (value c) := by
  induction settings with
  | nil => cases hc
  | cons d settings ih =>
    obtain ⟨hnew, hnames⟩ := List.nodup_cons.1 hnames
    rcases List.mem_cons.1 hc with rfl | hc
    · exact Document.entry?_cons_self
    · have hne : d.name ≠ c.name := by
        intro hname
        exact hnew (hname ▸ List.mem_map_of_mem hc)
      exact (Document.entry?_cons_of_ne hne).trans (ih hnames hc)

/-- Options of which each by itself stands for a setting describe what the settings are read as. -/
theorem ofOptions_optionsFor (hmeans : ∀ c ∈ settings, Says (value c) c.signed) :
    ofOptions (optionsFor value settings) =
      .ok ((settings.map Setting.signed).foldr Setting.apply plain) := by
  induction settings with
  | nil => exact ofOptions_eq_ok_iff.2 ⟨rfl, gives_plain⟩
  | cons c settings ih =>
    obtain ⟨hc, hmeans⟩ := List.forall_mem_cons.1 hmeans
    have hcons := ofOptions_cons (ih hmeans) hc
    rwa [Setting.name_signed] at hcons

/-- Options that stand for settings describe what these are read as, unless they ask for dice whose
spelling is not read. -/
theorem ofOptions_optionsFor_iff (hnames : (settings.map Setting.name).Nodup)
    (hdice : ∀ e, value (.dice e) = .text e.text)
    (hmeans : ∀ c ∈ settings, c.Legible → Says (value c) c.signed) :
    ofOptions (optionsFor value settings) = .ok i ↔
      (∀ c ∈ settings, c.Legible) ∧
        i = (settings.map Setting.signed).foldr Setting.apply plain := by
  constructor
  · intro h
    have hlegible : ∀ c ∈ settings, c.Legible := by
      intro c hc
      cases c with
      | dice e =>
        have hentry : Document.entry? (optionsFor value settings) "dice" = some (.text e.text) :=
          (entry?_optionsFor hnames hc).trans (congrArg some (hdice e))
        have hgives : diceUnder _ = .ok i.dice := (ofOptions_eq_ok_iff.1 h).2 .dice
        simp only [diceUnder, present?, hentry] at hgives
        obtain ⟨found, hfound, _⟩ := map_eq_ok_iff.1 hgives
        exact (Dice.Expr.read_text_eq_ok_iff.1 (mapError_eq_ok_iff.1 hfound)).1
      | _ => trivial
    have hall := ofOptions_optionsFor fun c hc => hmeans c hc (hlegible c hc)
    exact ⟨hlegible, Except.ok.inj (h.symm.trans hall)⟩
  · rintro ⟨hlegible, rfl⟩
    exact ofOptions_optionsFor fun c hc => hmeans c hc (hlegible c hc)

/-- The order of settings that set different parts has no influence. -/
theorem foldr_apply_perm {settings' : List Setting} (h : settings.Perm settings')
    (hnames : (settings.map Setting.name).Nodup) (i : Instructions) :
    settings.foldr Setting.apply i = settings'.foldr Setting.apply i := by
  refine h.foldr_eq' (fun c hc d hd i => ?_) i
  by_cases hcd : c = d
  · rw [hcd]
  · refine Setting.apply_comm (fun hkind => hcd ?_) i
    exact (List.inj_on_of_nodup_map hnames hd hc (congrArg Setting.Kind.name hkind)).symm

/-- Nor has the order of the options. -/
theorem ofOptions_of_perm_iff (hoptions : options.Perm (optionsFor value settings))
    (hnames : (settings.map Setting.name).Nodup)
    (hdice : ∀ e, value (.dice e) = .text e.text)
    (hmeans : ∀ c ∈ settings, c.Legible → Says (value c) c.signed) :
    ofOptions options = .ok i ↔
      (∀ c ∈ settings, c.Legible) ∧
        i = (settings.map Setting.signed).foldr Setting.apply plain := by
  have hself : List.Forall₂ (fun e c => e = (Scalar.text c.name, value c))
      (optionsFor value settings) settings :=
    List.forall₂_map_left_iff.2 (List.forall₂_same.2 fun _ _ => rfl)
  obtain ⟨settings', hforall, hperm⟩ := List.perm_comp_forall₂ hoptions hself
  obtain rfl : options = optionsFor value settings' := by
    rw [← List.forall₂_eq_eq_eq]
    exact List.forall₂_map_right_iff.2 hforall
  have hnames' : (settings'.map Setting.name).Nodup := (hperm.map Setting.name).nodup_iff.2 hnames
  rw [ofOptions_optionsFor_iff hnames' hdice fun c hc => hmeans c (hperm.mem_iff.1 hc),
    foldr_apply_perm (hperm.map Setting.signed) (by rwa [Setting.map_name_signed])]
  simp only [hperm.mem_iff]

end OptionsFor

/-- The dice that settings ask for are those that they amount to. -/
theorem dice_foldr_apply {settings : List Setting} {e : Dice.Expr}
    (hnames : (settings.map Setting.name).Nodup) (he : .dice e ∈ settings) (i : Instructions) :
    (settings.foldr Setting.apply i).dice = some e := by
  induction settings with
  | nil => cases he
  | cons c settings ih =>
    obtain ⟨hnew, hnames⟩ := List.nodup_cons.1 hnames
    rw [List.foldr_cons]
    rcases List.mem_cons.1 he with rfl | he
    · rfl
    · have hc : c.kind ≠ .dice := by
        intro hkind
        have hname : c.name = (Setting.dice e).name := congrArg Kind.name hkind
        exact hnew (hname ▸ List.mem_map_of_mem he)
      rw [← ih hnames he]
      cases c <;> first | rfl | exact absurd rfl hc

/-- Settings are read as themselves exactly if they are regular. -/
theorem foldr_signed_eq_iff {settings : List Setting}
    (hnames : (settings.map Setting.name).Nodup) :
    (∀ c ∈ settings, c.Legible) ∧ settings.foldr Setting.apply plain =
        (settings.map Setting.signed).foldr Setting.apply plain ↔
      ∀ c ∈ settings, c.Regular := by
  constructor
  · rintro ⟨hlegible, heq⟩ c hc
    cases c with
    | dice e =>
      have hself := dice_foldr_apply hnames hc plain
      have hsigned := dice_foldr_apply (by rwa [Setting.map_name_signed])
        (List.mem_map_of_mem (f := Setting.signed) hc) plain
      have he : some e = some e.signed := hself.symm.trans ((congrArg dice heq).trans hsigned)
      exact (Dice.Expr.signed_eq_iff (hlegible _ hc)).1 (Option.some.inj he).symm
    | _ => trivial
  · intro hregular
    have hmap : settings.map Setting.signed = settings :=
      (List.map_congr_left fun c hc => (hregular c hc).signed_eq).trans (List.map_id settings)
    exact ⟨fun c hc => (hregular c hc).legible, by rw [hmap]⟩

end Instructions
end RandomTables
