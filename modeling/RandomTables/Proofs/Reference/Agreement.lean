import RandomTables.Proofs.Reference.Spelled
import RandomTables.Proofs.Template.Positions

/-!
# The spellings of a reference agree

From the text of a reference, from its map and from a marker in a template the same reference is
read, in whatever order the options stand. Only if the spelling of the dice that are asked for is
not read there is none, and then on none of the three ways.
-/
namespace RandomTables

/-! ## Options in a text -/

namespace Document
variable {key : Text} {value : Document} {entries : List (Scalar × Document)}

theorem putEntry_of_new (h : ∀ e ∈ entries, ∃ other, e.1 = .text other ∧ other ≠ key) :
    putEntry (.text key) value entries = entries ++ [(.text key, value)] := by
  induction entries with
  | nil => rfl
  | cons e entries ih =>
    obtain ⟨⟨other, hother, hne⟩, hentries⟩ := List.forall_mem_cons.1 h
    obtain ⟨k, old⟩ := e
    obtain rfl : k = .text other := hother
    have hsame : (Scalar.text other).sameKey (.text key) = false := by
      simpa [Scalar.sameKey, Scalar.asInt?, Scalar.instant?] using hne
    rw [putEntry, hsame, ih hentries]
    rfl

/-- The value under a name that occurs once is found, and the other entries are what is left. -/
theorem apart_of_perm {rest : List (Scalar × Document)}
    (h : entries.Perm ((.text key, value) :: rest)) (hrest : ∀ e ∈ rest, e.1 ≠ .text key) :
    Document.entry? entries key = some value ∧
      (entries.filter fun e => e.1 != .text key).Perm rest := by
  constructor
  · have hperm := h.filter fun e => e.1 == .text key
    have hnone : rest.filter (fun e => e.1 == .text key) = [] :=
      List.filter_eq_nil_iff.2 fun e he => by simpa using hrest e he
    rw [List.filter_cons_of_pos (by simp), hnone] at hperm
    rw [Document.entry?, ← List.head?_filter, List.perm_singleton.1 hperm]
    rfl
  · have hperm := h.filter fun e => e.1 != .text key
    have hall : rest.filter (fun e => e.1 != .text key) = rest :=
      List.filter_eq_self.2 fun e he => by simpa using hrest e he
    rwa [List.filter_cons_of_neg (by simp), hall] at hperm

end Document

namespace Reference
open Instructions (optionsFor optionsFor_cons optionsFor_append)
variable {path : Text} {settings : List Setting} {r : Reference}

/-- Options with different names stand in the order in which they are put. -/
theorem foldl_putEntry (earlier : List Setting) {later : List Setting}
    (h : ((earlier ++ later).map Setting.name).Nodup) :
    (optionsFor Setting.textValue later).foldl (fun done e => Document.putEntry e.1 e.2 done)
        (optionsFor Setting.textValue earlier) =
      optionsFor Setting.textValue (earlier ++ later) := by
  induction later generalizing earlier with
  | nil => exact congrArg _ (List.append_nil earlier).symm
  | cons c later ih =>
    have hnew : ∀ e ∈ optionsFor Setting.textValue earlier,
        ∃ other, e.1 = .text other ∧ other ≠ c.name := by
      intro e he
      obtain ⟨d, hd, rfl⟩ := List.mem_map.1 he
      rw [List.map_append] at h
      exact ⟨d.name, rfl, (List.nodup_append.1 h).2.2 _ (List.mem_map_of_mem hd) _
        List.mem_cons_self⟩
    have hstep := ih (earlier ++ [c]) (by rwa [List.append_assoc])
    rw [List.append_assoc, List.singleton_append, optionsFor_append] at hstep
    rw [optionsFor_cons, List.foldl_cons, Document.putEntry_of_new hnew]
    exact hstep

theorem optionsOf_text (hcanonical : ∀ c ∈ settings, c.Canonical)
    (hnames : (settings.map Setting.name).Nodup) :
    optionsOf (settings.map Setting.text) = optionsFor Setting.textValue settings := by
  have hoptions : (settings.map Setting.text).filterMap optionOf? =
      optionsFor Setting.textValue settings := by
    rw [List.filterMap_map, optionsFor, ← List.filterMap_eq_map]
    exact List.filterMap_congr fun c hc => Setting.optionOf?_text (hcanonical c hc)
  rw [optionsOf, hoptions]
  exact foldl_putEntry [] hnames

/-! ## Whole references -/

/-- The text of a reference: the path, and the options with bars in front of them. -/
def spelled (path : Text) (settings : List Setting) : Text :=
  Text.joinWith [.char '|'] (path :: settings.map Setting.text)

theorem spelled_cons (path : Text) (c : Setting) (settings : List Setting) :
    spelled path (c :: settings) =
      path ++ .char '|' :: Text.joinWith [.char '|'] ((c :: settings).map Setting.text) :=
  Text.joinWith_cons_cons '|' path c.text (settings.map Setting.text)

/-- The path and the settings can be spelled, and no part is set twice. -/
structure Spellable (path : Text) (settings : List Setting) : Prop where
  filled : Text.allBlank path = false
  noBar : .char '|' ∉ path
  canonical : ∀ c ∈ settings, c.Canonical
  distinct : (settings.map Setting.name).Nodup

/-- The reference with the path and with what the settings amount to. -/
def withSettings (path : Text) (settings : List Setting) : Reference :=
  ⟨Text.trim path, settings.foldr Setting.apply .plain⟩

/-- The reference is what the spellings of the path and the settings are read as, where the dice
that are asked for, if any, have a spelling that is read. -/
structure MadeOf (path : Text) (settings : List Setting) (r : Reference) : Prop where
  legible : ∀ c ∈ settings, c.Legible
  eq : r = withSettings path (settings.map Setting.signed)

theorem madeOf_withSettings_iff (hnames : (settings.map Setting.name).Nodup) :
    MadeOf path settings (withSettings path settings) ↔ ∀ c ∈ settings, c.Regular := by
  rw [← Instructions.foldr_signed_eq_iff hnames]
  constructor
  · rintro ⟨hlegible, heq⟩
    exact ⟨hlegible, congrArg Reference.instructions heq⟩
  · rintro ⟨hlegible, heq⟩
    exact ⟨hlegible, congrArg (Reference.mk (Text.trim path)) heq⟩

/-- Trimming the text of a reference takes off what trimming its path does. -/
theorem exists_trim_spelled (h : Spellable path settings) :
    ∃ front, Text.trim (spelled path settings) = spelled front settings ∧
      Text.trim front = Text.trim path ∧ .char '|' ∉ front := by
  cases settings with
  | nil =>
    refine ⟨Text.trim path, rfl, Text.trim_trim path, fun hmem => h.noBar ?_⟩
    exact (Text.infix_trim path).subset hmem
  | cons c settings =>
    have htrimmed :
        Text.Trimmed (Text.joinWith [.char '|'] ((c :: settings).map Setting.text)) := by
      refine Text.trimmed_joinWith rfl fun piece hpiece => ?_
      obtain ⟨d, hd, rfl⟩ := List.mem_map.1 hpiece
      exact ⟨Setting.text_ne_nil, Setting.trimmed_text (h.canonical d hd)⟩
    refine ⟨Text.trimStart path, ?_, ?_, fun hmem => h.noBar ?_⟩
    · rw [spelled_cons, spelled_cons, Text.trim, Text.trimStart_append_of_filled h.filled,
        Text.trimEnd_append_cons rfl, htrimmed.trimEnd]
    · rw [Text.trim, Text.trimStart_trimStart, Text.trim]
    · exact (Text.trimStart_suffix path).subset hmem

theorem split_trim_spelled (h : Spellable path settings) :
    ∃ front, Text.split '|' (Text.trim (spelled path settings)) =
        front :: settings.map Setting.text ∧ Text.trim front = Text.trim path := by
  obtain ⟨front, htrim, hfront, hbar⟩ := exists_trim_spelled h
  refine ⟨front, ?_, hfront⟩
  rw [htrim, spelled]
  refine Text.split_joinWith (fun piece hpiece => ?_) (List.cons_ne_nil _ _)
  rcases List.mem_cons.1 hpiece with rfl | hpiece
  · exact hbar
  · obtain ⟨c, hc, rfl⟩ := List.mem_map.1 hpiece
    exact Setting.noBar_text (h.canonical c hc)

theorem ofText_spelled_iff (h : Spellable path settings) :
    ofText (Text.trim (spelled path settings)) = .ok r ↔ MadeOf path settings r := by
  obtain ⟨front, hsplit, hfront⟩ := split_trim_spelled h
  have hread : ∀ i, Instructions.ofOptions (optionsFor Setting.textValue settings) = .ok i ↔
      (∀ c ∈ settings, c.Legible) ∧
        i = (settings.map Setting.signed).foldr Setting.apply .plain := fun i =>
    Instructions.ofOptions_optionsFor_iff h.distinct (fun _ => rfl) fun c hc =>
      Setting.says_textValue (h.canonical c hc)
  rw [ofText, hsplit]
  simp only [optionsOf_text h.canonical h.distinct, hfront]
  rw [map_eq_ok_iff]
  simp only [hread]
  constructor
  · rintro ⟨_, ⟨hlegible, rfl⟩, rfl⟩
    exact ⟨hlegible, rfl⟩
  · rintro ⟨hlegible, rfl⟩
    exact ⟨_, ⟨hlegible, rfl⟩, rfl⟩

/-- The text of a reference is read as what its path and its settings come to. -/
theorem ofDocument_text_iff (h : Spellable path settings) (owner : Text) :
    ofDocument owner (.text (spelled path settings)) = .ok r ↔ MadeOf path settings r := by
  obtain ⟨front, hsplit, hfront⟩ := split_trim_spelled h
  have hcut : (Text.cut '|' (Text.trim (spelled path settings))).1 = front := by
    obtain ⟨rest, hrest⟩ := Text.exists_split_eq '|' (Text.trim (spelled path settings))
    exact (List.cons.inj (hrest.symm.trans hsplit)).1
  have hpath : (Text.trim path).isEmpty = false :=
    List.isEmpty_eq_false_iff.2 (Text.trim_ne_nil h.filled)
  rw [← ofText_spelled_iff h]
  simp only [ofDocument, Template.readReference, hcut, hfront, hpath, Bool.false_eq_true, if_false]
  cases ofText (Text.trim (spelled path settings)) with
  | ok found => simp only [Except.ok.injEq]
  | error fault => simp only [reduceCtorEq]

/-- So is its map, in whatever order the entries stand. -/
theorem ofDocument_map_iff (h : Spellable path settings) (owner : Text)
    {entries : List (Scalar × Document)}
    (hentries : entries.Perm ((.text "path", .text path) :: optionsFor Setting.value settings)) :
    ofDocument owner (.map entries) = .ok r ↔ MadeOf path settings r := by
  have hother : ∀ e ∈ optionsFor Setting.value settings, e.1 ≠ .text "path" := by
    intro e he hname
    obtain ⟨c, _, rfl⟩ := List.mem_map.1 he
    exact c.kind.name_ne_path (Scalar.text.inj hname)
  obtain ⟨hpath, hrest⟩ := Document.apart_of_perm hentries hother
  have hread : ∀ i, Instructions.ofOptions (entries.filter fun e => e.1 != .text "path") = .ok i ↔
      (∀ c ∈ settings, c.Legible) ∧
        i = (settings.map Setting.signed).foldr Setting.apply .plain := fun i =>
    Instructions.ofOptions_of_perm_iff hrest h.distinct (fun _ => rfl) fun c hc =>
      Setting.says_value (h.canonical c hc)
  have hset : (Document.text path).isSet = true := by
    obtain ⟨c, rest, hstart, _⟩ := Text.exists_trimStart_eq_cons h.filled
    cases path with
    | nil => cases hstart
    | cons c path => rfl
  rw [ofDocument, hpath, Option.filter_some_pos hset]
  dsimp only
  constructor
  · intro hr
    split at hr
    · next i hi =>
      obtain ⟨hlegible, rfl⟩ := (hread i).1 hi
      exact ⟨hlegible, (Except.ok.inj hr).symm⟩
    · cases hr
    · cases hr
  · rintro ⟨hlegible, rfl⟩
    rw [(hread _).2 ⟨hlegible, rfl⟩]
    rfl

/-! ## In templates -/

/-- What starts as a reference does so whatever is taken off behind it, and whatever follows. -/
theorem looksLikeReference_trim_append {s : Text} (h : Template.looksLikeReference s) (t : Text) :
    Template.looksLikeReference (Text.trim (s ++ t)) := by
  have hstarts : ∀ start ∈ Template.referenceStarts,
      start = start.dropLast ++ [.char '/'] ∧ ∀ c ∈ start.head?, Text.isBlank c = false := by
    decide
  obtain ⟨start, hstart, hprefix⟩ := List.any_eq_true.1 h
  obtain ⟨rest, rfl⟩ := List.isPrefixOf_iff_prefix.1 hprefix
  obtain ⟨hslash, hhead⟩ := hstarts start hstart
  refine List.any_eq_true.2 ⟨start, hstart, List.isPrefixOf_iff_prefix.2 ?_⟩
  have hfirst : Text.trimStart (start ++ (rest ++ t)) = start ++ (rest ++ t) := by
    refine Text.trimStart_of_head fun c hc => hhead c ?_
    cases start with
    | nil => cases hslash
    | cons d start => exact hc
  have hlast : Text.trimEnd (start ++ (rest ++ t)) = start ++ Text.trimEnd (rest ++ t) := by
    rw [hslash, List.append_assoc, List.singleton_append, Text.trimEnd_append_cons rfl,
      List.append_assoc, List.singleton_append]
  rw [List.append_assoc, Text.trim, hfirst, hlast]
  exact List.prefix_append _ _

/-- In a double marker, the text of a reference is read as it is outside of templates. -/
theorem read_double_iff (h : Spellable path settings) (hstart : Template.looksLikeReference path)
    (hunmarked : ∀ c ∈ spelled path settings, Template.IsUnmarked c) (offset : Int) :
    Template.read (Template.double (spelled path settings)) offset = .ok [.reference r none] ↔
      MadeOf path settings r := by
  have hlooks : Template.looksLikeReference (Text.trim (spelled path settings)) := by
    cases settings with
    | nil =>
      have hpath := looksLikeReference_trim_append hstart []
      rwa [List.append_nil] at hpath
    | cons c settings =>
      rw [spelled_cons]
      exact looksLikeReference_trim_append hstart _
  have hnamed : ∀ s, Text.trim (spelled path settings) ≠ .char '@' :: s := by
    intro s hs
    rw [hs, Template.looksLikeReference_eq_false (by rintro _ ⟨⟩; decide)] at hlooks
    cases hlooks
  have hdouble :
      Template.components offset [] (Template.double (spelled path settings) ++ []) = _ :=
    Template.components_double (.of_unmarked hunmarked) []
  have hend : ∀ position, Template.components position [] [] = .ok [] := fun position =>
    Template.components_ended (by simp)
  rw [List.append_nil, Template.doubleMarker_unnamed hnamed, if_pos hlooks, Template.referenceAt]
    at hdouble
  rw [Template.read, hdouble, ← ofText_spelled_iff h]
  cases ofText (Text.trim (spelled path settings)) with
  | ok found =>
    simp only [Except.map, hend, Template.flush, List.isEmpty_nil, if_true, List.nil_append,
      Except.ok.injEq, List.cons.injEq, Component.reference.injEq, and_true]
  | error fault => simp only [Except.map, reduceCtorEq]

end Reference

/-- From the text of a reference, from its map with the entries in any order, and from a template
with the text in a marker, the same is read. If the dice that are asked for, if any, have sides and
no minus stands twice in front of them, this is the reference with the path and all the settings,
where a minus in front of a number of dice is their sign; otherwise nothing is read on any of these
ways. So it is the reference with the settings as they are exactly if the dice are regular. -/
theorem spellings_agree {path : Text} {settings : List Setting}
    (h : Reference.Spellable path settings) {entries : List (Scalar × Document)}
    (hentries : entries.Perm ((.text "path", .text path) ::
      Instructions.optionsFor Setting.value settings))
    (owner : Text) (offset : Int) :
    (∀ r,
      (Reference.ofDocument owner (.text (Reference.spelled path settings)) = .ok r ↔
        Reference.MadeOf path settings r) ∧
      (Reference.ofDocument owner (.map entries) = .ok r ↔ Reference.MadeOf path settings r) ∧
      (Template.looksLikeReference path →
        (∀ c ∈ Reference.spelled path settings, Template.IsUnmarked c) →
        (Template.read (Template.double (Reference.spelled path settings)) offset =
            .ok [.reference r none] ↔ Reference.MadeOf path settings r))) ∧
    (Reference.MadeOf path settings (.withSettings path settings) ↔
      ∀ c ∈ settings, c.Regular) :=
  ⟨fun _ => ⟨Reference.ofDocument_text_iff h owner, Reference.ofDocument_map_iff h owner hentries,
    fun hstart hunmarked => Reference.read_double_iff h hstart hunmarked offset⟩,
    Reference.madeOf_withSettings_iff h.distinct⟩

/-- A setting of each kind. -/
def gemSettings : List Setting :=
  [.repeats (.fixed 3), .dice (.join .add (.dice 2 6 false) (.constant 1)), .total (.bound "sum"),
    .modifier (.fixed (-2)), .unique, .ignore [.fixed 1, .bound "luck"],
    .store [("a", "b"), ("c", "d")], .title "Gems = loot"]

/-- A map with these settings, which starts with the last one. -/
def gemEntries : List (Scalar × Document) :=
  [(.text "title", .text "Gems = loot"),
    (.text "store", .map [(.text "a", .text "b"), (.text "c", .text "d")]),
    (.text "ignore", .list [.int 1, .text "luck"]), (.text "unique", .scalar (.bool true)),
    (.text "modifier", .int (-2)), (.text "total", .text "sum"), (.text "dice", .text "2d6+1"),
    (.text "roll", .int 3), (.text "path", .text "/gems")]

/-- The text with these settings. -/
def gemText : Text :=
  "/gems|roll=3|dice=2d6+1|total=sum|modifier=-2|unique|ignore=1,luck|store=a:b,c:d|" ++
    "title=Gems = loot"

/-- The reference that is spelled. -/
def gems : Reference :=
  ⟨"/gems", ⟨some (.fixed 3), some (.join .add (.dice 2 6 false) (.constant 1)),
    some (.bound "sum"), some (.fixed (-2)), true, [.fixed 1, .bound "luck"],
    ⟨[("a", "b"), ("c", "d")]⟩, some "Gems = loot"⟩⟩

/-- On all three ways the gems are what they are set to. A die less than none, however, is read as
one die that counts negatively. -/
theorem gemSettings_agree :
    Reference.ofDocument "/t" (.text gemText) = .ok gems ∧
      Reference.ofDocument "/t" (.map gemEntries) = .ok gems ∧
      Template.read (Template.double gemText) 0 = .ok [.reference gems none] ∧
      Reference.ofDocument "/t" (.text "/x|dice=-1d6") =
        .ok (.withSettings "/x" [.dice (.dice 1 6 true)]) := by
  have hspellable : Reference.Spellable "/gems" gemSettings :=
    ⟨by decide +kernel, by decide +kernel, by decide +kernel, by decide +kernel⟩
  have hentries : gemEntries = ((.text "path", .text "/gems") ::
      Instructions.optionsFor Setting.value gemSettings).reverse := by decide +kernel
  have htext : Reference.spelled "/gems" gemSettings = gemText := by decide +kernel
  have hgems : Reference.withSettings "/gems" gemSettings = gems := by decide +kernel
  obtain ⟨hread, hmade⟩ := spellings_agree hspellable (hentries ▸ List.reverse_perm _) "/t" 0
  obtain ⟨hfromText, hfromMap, hfromTemplate⟩ := hread gems
  rw [htext] at hfromText hfromTemplate
  rw [hgems] at hmade
  have hregular := hmade.2 (by simp [gemSettings, Setting.Regular, Dice.Expr.Regular])
  have hfewer : Reference.Spellable "/x" [.dice (.dice (-1) 6 false)] :=
    ⟨by decide +kernel, by decide +kernel, by decide +kernel, by decide +kernel⟩
  have hsigned : Reference.MadeOf "/x" [.dice (.dice (-1) 6 false)]
      (.withSettings "/x" [.dice (.dice 1 6 true)]) :=
    ⟨by simp [Setting.Legible, Dice.Expr.Legible], rfl⟩
  exact ⟨hfromText.2 hregular, hfromMap.2 hregular,
    (hfromTemplate (by decide +kernel) (by decide +kernel)).2 hregular,
    ((spellings_agree hfewer (.refl _) "/t" 0).1 _).1.2 hsigned⟩

/-- Dice without sides can be spelled, and there is no reference that asks for them. -/
theorem sidelessDice_refused :
    Reference.Spellable "/x" [.dice (.dice 1 0 false)] ∧
      Reference.spelled "/x" [.dice (.dice 1 0 false)] = "/x|dice=1d0" ∧
      ∀ r, Reference.ofDocument "/t" (.text "/x|dice=1d0") ≠ .ok r ∧
        Reference.ofDocument "/t" (.map [(.text "path", .text "/x"), (.text "dice", .text "1d0")]) ≠
          .ok r := by
  have hspellable : Reference.Spellable "/x" [.dice (.dice 1 0 false)] :=
    ⟨by decide +kernel, by decide +kernel, by decide +kernel, by decide +kernel⟩
  have htext : Reference.spelled "/x" [.dice (.dice 1 0 false)] = "/x|dice=1d0" := by decide +kernel
  have hmade : ∀ r, ¬ Reference.MadeOf "/x" [.dice (.dice 1 0 false)] r := fun r hr => by
    simpa [Setting.Legible, Dice.Expr.Legible] using hr.legible
  refine ⟨hspellable, htext, fun r => ⟨fun hr => hmade r ?_, fun hr => hmade r ?_⟩⟩
  · rw [← htext] at hr
    exact (Reference.ofDocument_text_iff hspellable "/t").1 hr
  · exact (Reference.ofDocument_map_iff hspellable "/t" (.refl _)).1 hr

end RandomTables
