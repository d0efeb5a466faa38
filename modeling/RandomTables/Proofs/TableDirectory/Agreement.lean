import RandomTables.Document.Decode
import RandomTables.Proofs.Registry.Completes
import RandomTables.Proofs.TableDirectory.Served
import RandomTables.TableDirectory.Load

/-!
# Listing, serving and loading

An entry is named three times over: it is listed, it is asked for, and its definition is registered
under a path. The three agree on entries that are absolute paths without a blank at their end, if
one of their files has its suffix in small letters. An entry that is no such path is registered
elsewhere, where it can take the place of another one, and an entry without such a file is listed in
vain.
-/
namespace RandomTables

namespace Registry

section
variable [Decoder] {r r' r'' : Registry} {sources more : List (Text × SourceText)} {root entry : Text}
  {source : SourceText} {d : Definition}

/-- From one registry on, the definitions of some sources were taken in. -/
structure Takes (r : Registry) (sources : List (Text × SourceText)) (r' : Registry) : Prop where
  root_eq : r'.root = r.root
  get?_eq : ∀ path, r'.get? path = (newest? r.root sources path).or (r.get? path)

namespace Takes

theorem trans (h : r.Takes sources r') (h' : r'.Takes more r'') :
    r.Takes (sources ++ more) r'' := by
  refine ⟨h'.root_eq.trans h.root_eq, fun path => ?_⟩
  rw [h'.get?_eq, h.get?_eq, h.root_eq, newest?_append, Option.or_assoc]

end Takes

/-- A definition that nothing else is described in the place of is found under its path. -/
theorem newest?_eq_some (hmem : (entry, source) ∈ sources)
    (hdefine : source.define (Path.resolve entry "/" root) = .ok d)
    (honly : ∀ other ∈ sources, Path.resolve other.1 "/" root = Path.resolve entry "/" root →
      other = (entry, source)) :
    newest? root sources (Path.resolve entry "/" root) = some d := by
  let found := (sources.filterMap (defined? root)).filter
    fun found => decide (found.path = Path.resolve entry "/" root)
  have hfound : d ∈ found := List.mem_filter.2
    ⟨List.mem_filterMap.2 ⟨_, hmem, defined?_of_ok hdefine⟩,
      decide_eq_true (SourceText.path_of_define hdefine)⟩
  have hsame : ∀ e ∈ found, e = d := by
    intro e he
    obtain ⟨hdefined, hpath⟩ := List.mem_filter.1 he
    obtain ⟨⟨other, otherSource⟩, hother, hdefined⟩ := List.mem_filterMap.1 hdefined
    have hother' := define_of_defined? hdefined
    have hplace := (SourceText.path_of_define hother').symm.trans (of_decide_eq_true hpath)
    obtain ⟨rfl, rfl⟩ := Prod.mk.inj (honly _ hother hplace)
    exact Except.ok.inj (hother'.symm.trans hdefine)
  change found.getLast? = some d
  cases hlast : found.getLast? with
  | none => exact absurd (List.getLast?_eq_none_iff.1 hlast) (List.ne_nil_of_mem hfound)
  | some e => rw [hsame e (List.mem_of_getLast? hlast)]

end

end Registry

namespace TableDirectory
open Registry (newest?)

variable {disk : Disk} {directory p file : PathName} {place names init : List Text}
  {items : List (Text × Item)} {entry last text : Text} {entries : List Text} {r r' : Registry}

/-! ## What entries are loaded from -/

/-- What an entry is loaded from: the text of the file that is served for it, if it can be read. -/
def source? (disk : Disk) (directory : PathName) (entry : Text) : Option SourceText :=
  match retrieve disk directory entry with
  | .ok (file, text) => some (.text text (cutSuffix file.lastName).2)
  | .error _ => none

/-- The entries that can be read, and what they are loaded from. -/
def sources (disk : Disk) (directory : PathName) (entries : List Text) : List (Text × SourceText) :=
  entries.filterMap fun entry => (source? disk directory entry).map (Prod.mk entry)

theorem source?_of_ok (h : retrieve disk directory entry = .ok (file, text)) :
    source? disk directory entry = some (.text text (cutSuffix file.lastName).2) := by
  rw [source?, h]

theorem source?_of_error {fault : RetrieveFault}
    (h : retrieve disk directory entry = .error fault) :
    source? disk directory entry = none := by
  rw [source?, h]

/-- There is a way to the entry: no link that leads back to itself is in it. -/
def IsReached (disk : Disk) (directory : PathName) (entry : Text) : Prop :=
  ∀ path, retrieve disk directory entry ≠ .error (.directory (.disk ⟨.endless, path⟩))

namespace Stands

/-- There is a way to every entry that is listed. -/
theorem isReached (h : Stands disk directory place items) (hproduces : Produces items names entry) :
    IsReached disk directory entry := by
  obtain ⟨init, last, rfl, hparts⟩ := hproduces.exists_parts h
  intro path hretrieve
  obtain hresolve | ⟨file, _, hread⟩ := bind_eq_error_iff.1 hretrieve
  · obtain ⟨fault, hfault, heq⟩ := mapError_eq_error_iff.1 hresolve
    obtain rfl := RetrieveFault.directory.inj heq
    cases h.kind_of_resolveEntry_eq_error hparts hfault
  · obtain hread | ⟨text, _, hdone⟩ := bind_eq_error_iff.1 hread
    · obtain ⟨fault, _, heq⟩ := mapError_eq_error_iff.1 hread
      cases heq
    · cases hdone

/-- The text of a file that is served can be read if it is text at all. -/
theorem retrieve_eq_ok (h : Stands disk directory place items) {content : ByteArray}
    (hserved : resolveEntry disk directory entry = .ok (.ofPlace (place ++ names)))
    (hat : disk.root.at? (place ++ names) = some (.file content))
    (htext : textOf? content = some text) :
    retrieve disk directory entry = .ok (.ofPlace (place ++ names), text) := by
  have hmem := h.mem_leaves_iff.2 ⟨content, hat⟩
  have hfind : disk.find (.ofPlace (place ++ names)) = .ok (place ++ names, .file content) :=
    Disk.find_append_of_at? h.plain (Disk.find_root disk) (h.askable names hmem).2 hat
  have hread : disk.readText (.ofPlace (place ++ names)) = .ok text := by
    simp only [Disk.readText, Disk.readBytes, hfind, htext]
  rw [retrieve, hserved]
  change (do
    let text ← (disk.readText (.ofPlace (place ++ names))).mapError RetrieveFault.read
    _) = _
  rw [hread]
  rfl

theorem source?_eq (h : Stands disk directory place items) (names : List Text) {content : ByteArray}
    (hserved : resolveEntry disk directory entry = .ok (.ofPlace (place ++ names)))
    (hat : disk.root.at? (place ++ names) = some (.file content))
    (htext : textOf? content = some text) :
    source? disk directory entry = some (.text text (cutSuffix (names.getLastD [])).2) := by
  obtain ⟨_, init, last, rfl⟩ := h.exists_concat (h.mem_leaves_iff.2 ⟨content, hat⟩)
  have hlast : (PathName.ofPlace (place ++ (init ++ [last]))).lastName = last := by
    rw [PathName.lastName, PathName.ofPlace, ← List.append_assoc, List.getLastD_concat]
  rw [source?_of_ok (h.retrieve_eq_ok hserved hat htext), hlast, List.getLastD_concat]

end Stands

/-! ## Loading entries -/

section
variable [Decoder]

theorem takes_of_addEntry (h : addEntry disk directory r entry = .ok r') :
    r.Takes (sources disk directory [entry]) r' := by
  unfold addEntry at h
  split at h
  · cases h
  · next fault _ hretrieve =>
    obtain rfl := Except.ok.inj h
    have hnone : sources disk directory [entry] = [] := by
      simp [sources, source?_of_error hretrieve]
    rw [hnone]
    exact ⟨rfl, fun _ => rfl⟩
  · next file text hretrieve =>
    have hone : sources disk directory [entry] =
        [(entry, .text text (cutSuffix file.lastName).2)] := by
      simp [sources, source?_of_ok hretrieve]
    obtain ⟨hroot, _, _, _, hget⟩ := Registry.loads_of_addSource (mapError_eq_ok_iff.1 h)
    rw [hone]
    exact ⟨hroot, hget⟩

theorem takes_of_addEntries (h : entries.foldlM (addEntry disk directory) r = .ok r') :
    r.Takes (sources disk directory entries) r' := by
  induction entries generalizing r with
  | nil =>
    obtain rfl := Except.ok.inj h
    exact ⟨rfl, fun _ => rfl⟩
  | cons entry rest ih =>
    rw [List.foldlM_cons] at h
    obtain ⟨next, hnext, hrest⟩ := bind_eq_ok_iff.1 h
    have hsplit : sources disk directory (entry :: rest) =
        sources disk directory [entry] ++ sources disk directory rest := by
      rw [sources, ← List.singleton_append, List.filterMap_append]
      rfl
    rw [hsplit]
    exact (takes_of_addEntry hnext).trans (ih hrest)

theorem addEntry_eq_ok_iff (hreached : IsReached disk directory entry) :
    (∃ r', addEntry disk directory r entry = .ok r') ↔
      ∀ source ∈ source? disk directory entry,
        ¬ source.EndsLoading (Path.resolve entry "/" r.root) := by
  unfold addEntry
  split
  · next path hretrieve => exact absurd hretrieve (hreached path)
  · next fault _ hretrieve =>
    rw [source?_of_error hretrieve]
    exact iff_of_true ⟨_, rfl⟩ nofun
  · next file text hretrieve =>
    simp only [source?_of_ok hretrieve, mapError_eq_ok_iff, Registry.addSource_eq_ok_iff,
      Option.mem_some_iff, forall_eq']

theorem addEntries_eq_ok_iff (hreached : ∀ entry ∈ entries, IsReached disk directory entry) :
    (∃ r', entries.foldlM (addEntry disk directory) r = .ok r') ↔
      ∀ entry ∈ entries, ∀ source ∈ source? disk directory entry,
        ¬ source.EndsLoading (Path.resolve entry "/" r.root) := by
  induction entries generalizing r with
  | nil => exact iff_of_true ⟨r, rfl⟩ nofun
  | cons entry rest ih =>
    obtain ⟨hfirst, hrest⟩ := List.forall_mem_cons.1 hreached
    simp only [List.foldlM_cons, bind_eq_ok_iff, List.forall_mem_cons]
    rw [← addEntry_eq_ok_iff hfirst]
    constructor
    · rintro ⟨r', next, hnext, hr'⟩
      have hroot := (takes_of_addEntry hnext).root_eq
      refine ⟨⟨next, hnext⟩, ?_⟩
      rw [← hroot]
      exact (ih hrest).1 ⟨r', hr'⟩
    · rintro ⟨⟨next, hnext⟩, hends⟩
      have hroot := (takes_of_addEntry hnext).root_eq
      rw [← hroot] at hends
      obtain ⟨r', hr'⟩ := (ih hrest).2 hends
      exact ⟨r', next, hnext, hr'⟩

/-- An entry leads to its definition if no other entry is registered under the same path. -/
theorem newest?_sources {root : Text} {source : SourceText} {d : Definition}
    (hentry : entry ∈ entries) (hsource : source? disk directory entry = some source)
    (hdefine : source.define (Path.resolve entry "/" root) = .ok d)
    (honly : ∀ other ∈ entries, Path.resolve other "/" root = Path.resolve entry "/" root →
      other = entry) :
    newest? root (sources disk directory entries) (Path.resolve entry "/" root) = some d := by
  have hmem : (entry, source) ∈ sources disk directory entries :=
    List.mem_filterMap.2 ⟨entry, hentry, by rw [hsource]; rfl⟩
  refine Registry.newest?_eq_some hmem hdefine ?_
  rintro ⟨other, otherSource⟩ hother hsame
  obtain ⟨listed, hlisted, hmapped⟩ := List.mem_filterMap.1 hother
  obtain ⟨found, hfound, heq⟩ := Option.map_eq_some_iff.1 hmapped
  obtain ⟨rfl, rfl⟩ := Prod.mk.inj heq
  obtain rfl := honly listed hlisted hsame
  rw [Option.some.inj (hfound.symm.trans hsource)]

theorem load_eq (hindex : index disk directory [] = .ok entries) (root : Text) :
    load disk directory root = entries.foldlM (addEntry disk directory) (Registry.empty root) := by
  rw [load, hindex]
  rfl

namespace Stands

/-- What is listed is served from one of its files exactly if it is an absolute path and one of its
files has its suffix in small letters, and it is registered under itself exactly if it is an
absolute path that does not end in a blank. All entries are loaded unless one ends the loading.
Under a path stands the last definition that was described for it, so an entry that is registered
under itself, and that no other one takes the place of, leads to the definition in the file that is
served for it. -/
theorem entries_agree (h : Stands disk directory place items) :
    ∃ entries, index disk directory [] = .ok entries ∧
      (∀ entry, entry ∈ entries ↔ ∃ names, Produces items names entry) ∧
      (∀ entry, IsServed disk directory place items entry ↔ Path.IsAbsolute entry ∧
        ∃ names, Produces items names entry ∧ (cutSuffix (names.getLastD [])).2 ∈ suffixes) ∧
      (∀ entry ∈ entries, Path.resolve entry "/" "/" = entry ↔
        Path.IsAbsolute entry ∧ Text.trim entry = entry) ∧
      ((∃ r, load disk directory "/" = .ok r) ↔ ∀ entry ∈ entries,
        ∀ source ∈ source? disk directory entry,
          ¬ source.EndsLoading (Path.resolve entry "/" "/")) ∧
      ∀ r, load disk directory "/" = .ok r →
        (∀ path, r.get? path = newest? "/" (sources disk directory entries) path) ∧
        ∀ entry ∈ entries, Path.resolve entry "/" "/" = entry →
          (∀ other ∈ entries, Path.resolve other "/" "/" = entry → other = entry) →
          ∀ names content text d,
            resolveEntry disk directory entry = .ok (.ofPlace (place ++ names)) →
            disk.root.at? (place ++ names) = some (.file content) →
            textOf? content = some text →
            (SourceText.text text (cutSuffix (names.getLastD [])).2).define entry = .ok d →
            r.get? entry = some d := by
  obtain ⟨entries, hindex, hlisted⟩ := h.index_eq_ok
  refine ⟨entries, hindex, hlisted, fun entry => h.isServed_iff, ?_, ?_, ?_⟩
  · intro entry hentry
    obtain ⟨names, hproduces⟩ := (hlisted entry).1 hentry
    obtain ⟨init, last, _, hparts⟩ := hproduces.exists_parts h
    exact hparts.resolve_eq_iff
  · rw [load_eq hindex]
    refine addEntries_eq_ok_iff fun entry hentry => ?_
    obtain ⟨names, hproduces⟩ := (hlisted entry).1 hentry
    exact h.isReached hproduces
  · intro r hload
    rw [load_eq hindex] at hload
    have hget : ∀ path, r.get? path = newest? "/" (sources disk directory entries) path :=
      fun path => ((takes_of_addEntries hload).get?_eq path).trans (Option.or_none ..)
    refine ⟨hget, ?_⟩
    intro entry hentry hfixed honly names content text d hserved hat htext hdefine
    rw [hget, ← hfixed]
    refine newest?_sources hentry (h.source?_eq names hserved hat htext) (hfixed.symm ▸ hdefine) ?_
    rw [hfixed]
    exact honly

end Stands

end

/-! ## A directory of gems -/

theorem textOf?_toUTF8 (s : String) : textOf? s.toUTF8 = some (Text.unifyLineEnds s) := by
  have hvalid : s.toUTF8.IsValidUTF8 := s.isValidUTF8
  have hread : String.fromUTF8? s.toUTF8 = some s := by
    unfold String.fromUTF8?
    rw [dif_pos hvalid]
    rfl
  rw [textOf?, hread]
  rfl

/-- A disk with one directory of tables. -/
def shelf (items : List (Text × Item)) : Disk := ⟨.folder [("tables", .folder items)], []⟩

def shelfName : PathName := .ofPlace ["tables"]

theorem shelf_stands (hplain : (Item.folder items).IsPlain)
    (haskable : ∀ names ∈ Item.leavesOfEntries items,
      (PathName.ofPlace ("tables" :: names)).fault? = none) :
    Stands (shelf items) shelfName ["tables"] items := by
  have hname : IsFileName "tables" ∧ ("tables" : Text) ∉ ([] : List Text) := by decide +kernel
  have hroot : (shelf items).root.IsPlain := ⟨hname, hplain, trivial⟩
  have hfault : ((PathName.ofPlace []).append ["tables"]).fault? = none := by decide +kernel
  have hat : (shelf items).root.at? ["tables"] = some (.folder items) := by
    simp [shelf, Item.at?, Item.lookup]
  refine ⟨hroot, ?_, fun names hnames => ⟨haskable names hnames, haskable names hnames⟩⟩
  exact Disk.find_append_of_at? hroot (Disk.find_root _) hfault hat

def ruby : String := "\x7b\"rows\":[\"ruby\"]\x7d"

def rubyTable : Definition :=
  .table ⟨"/gem", "gem", .dice 1 1 false, [⟨[.plain "ruby"], .single 1, "ruby"⟩], .empty, none⟩

theorem ruby_define :
    (SourceText.text (Text.unifyLineEnds ruby) (cutSuffix "gem.json").2).define "/gem" =
      .ok rubyTable := by
  have hlower : Text.lower (cutSuffix "gem.json").2 = ".json" := by decide +kernel
  have hread : Json.read? (Text.unifyLineEnds ruby) =
      some (.record [("rows", .list [.text "ruby"])]) := by decide +kernel
  have hdecode : Decoder.decode (Text.unifyLineEnds ruby) (cutSuffix "gem.json").2 =
      .ok (.record [("rows", .list [.text "ruby"])]) := by
    change Document.decode _ _ = _
    simp only [Document.decode, hlower, hread]
    rfl
  rw [SourceText.define, hdecode]
  with_unfolding_all rfl

/-- A table of gems, and a note that is no table. -/
def gems : List (Text × Item) :=
  [("gem.json", .file ruby.toUTF8), ("note.txt", .file "buy gems".toUTF8)]

theorem gems_stand : Stands (shelf gems) shelfName ["tables"] gems :=
  shelf_stands (by decide +kernel) (by decide +kernel)

theorem gems_produce_iff :
    Produces gems names entry ↔ names = ["gem.json"] ∧ entry = "/gem" := by
  have hentry : entryOf ["gem.json"] = "/gem" := by decide +kernel
  constructor
  · intro h
    have htables : ∀ names ∈ Item.leavesOfEntries gems, isTableName (names.getLastD []) →
        names = ["gem.json"] := by decide +kernel
    obtain rfl := htables names h.file h.table
    exact ⟨rfl, h.entry_eq.symm.trans hentry⟩
  · rintro ⟨rfl, rfl⟩
    exact ⟨by decide +kernel, by decide +kernel, hentry⟩

/-- The table of gems is listed, served and registered under the same path. -/
theorem gems_agree :
    Stands (shelf gems) shelfName ["tables"] gems ∧
      ∃ entries, index (shelf gems) shelfName [] = .ok entries ∧ ("/gem" : Text) ∈ entries ∧
        IsServed (shelf gems) shelfName ["tables"] gems "/gem" ∧
        ∃ r, load (shelf gems) shelfName "/" = .ok r ∧ r.get? "/gem" = some rubyTable := by
  obtain ⟨entries, hindex, hlisted, hserved, hfixed, hcompletes, hloaded⟩ :=
    gems_stand.entries_agree
  have hproduces : Produces gems ["gem.json"] "/gem" := gems_produce_iff.2 ⟨rfl, rfl⟩
  have hmem : ("/gem" : Text) ∈ entries := (hlisted "/gem").2 ⟨_, hproduces⟩
  have honly : ∀ entry ∈ entries, entry = "/gem" := by
    intro entry hentry
    obtain ⟨names, h⟩ := (hlisted entry).1 hentry
    exact (gems_produce_iff.1 h).2
  have habsolute : Path.IsAbsolute "/gem" := ⟨["gem"], by decide +kernel, by decide +kernel⟩
  have hgem := (hserved "/gem").2 ⟨habsolute, _, hproduces, by decide +kernel⟩
  have hself : Path.resolve "/gem" "/" "/" = "/gem" :=
    (hfixed "/gem" hmem).2 ⟨habsolute, by decide +kernel⟩
  have hfile : resolveEntry (shelf gems) shelfName "/gem" =
      .ok (.ofPlace ["tables", "gem.json"]) := by
    obtain ⟨names, h, hfile⟩ := hgem
    obtain ⟨rfl, _⟩ := gems_produce_iff.1 h
    exact hfile
  have hat : (shelf gems).root.at? ["tables", "gem.json"] = some (.file ruby.toUTF8) := by
    simp [shelf, gems, Item.at?, Item.lookup]
  have htext := textOf?_toUTF8 ruby
  obtain ⟨r, hr⟩ : ∃ r, load (shelf gems) shelfName "/" = .ok r := by
    refine hcompletes.2 fun entry hentry source hsource => ?_
    obtain rfl := honly entry hentry
    have hloads := gems_stand.source?_eq ["gem.json"] hfile hat htext
    obtain rfl := Option.some.inj (hloads.symm.trans hsource)
    rw [hself, ← SourceText.exists_grave_iff]
    rintro ⟨fault, hfault, _⟩
    cases ruby_define.symm.trans hfault
  refine ⟨gems_stand, entries, hindex, hmem, hgem, r, hr, ?_⟩
  exact (hloaded r hr).2 "/gem" hmem hself (fun other hother _ => honly other hother) ["gem.json"]
    _ _ _ hfile hat htext ruby_define

/-- A table of gems under a suffix in capitals. -/
def loudGems : List (Text × Item) := [("gem.YML", .file "rows: [ruby]".toUTF8)]

/-- The table of gems in capitals is listed, but there is no file for its entry. -/
theorem loudGems_not_served :
    (∃ entries, index (shelf loudGems) shelfName [] = .ok entries ∧ ("/gem" : Text) ∈ entries) ∧
      resolveEntry (shelf loudGems) shelfName "/gem" = .error (.noFile "/gem") := by
  have hstands : Stands (shelf loudGems) shelfName ["tables"] loudGems :=
    shelf_stands (by decide +kernel) (by decide +kernel)
  have hproduces : Produces loudGems ["gem.YML"] "/gem" :=
    ⟨by decide +kernel, by decide +kernel, by decide +kernel⟩
  obtain ⟨entries, hindex, hlisted⟩ := hstands.index_eq_ok
  refine ⟨⟨entries, hindex, (hlisted "/gem").2 ⟨_, hproduces⟩⟩, ?_⟩
  have hparts : Parts ["tables"] "/gem" [] "gem.YML" :=
    ⟨by decide +kernel, by decide +kernel, by decide +kernel, by decide +kernel, by decide +kernel⟩
  have hbelow : (Parts.base ["tables"] [] "gem.YML").isBelow (.ofPlace ["tables"]) := by
    decide +kernel
  have hasked : ∀ suffix ∈ suffixes,
      (∀ name ∈ (["tables", "gem" ++ suffix] : List Text), IsFileName name) ∧
      (PathName.ofPlace ["tables", "gem" ++ suffix]).fault? = none ∧
      ((shelf loudGems).root.at? ["tables", "gem" ++ suffix]).any Item.isFile = false := by
    decide +kernel
  have hnone : fileAt? (shelf loudGems) (Parts.base ["tables"] [] "gem.YML") suffixes =
      .ok none := by
    refine fileAt?_eq_none fun suffix hmem => ?_
    obtain ⟨hnames, hfault, hfree⟩ := hasked suffix hmem
    have hbase : (Parts.base ["tables"] [] "gem.YML").withLastName
        ((Parts.base ["tables"] [] "gem.YML").lastName ++ suffix) =
          .ofPlace ["tables", "gem" ++ suffix] := Parts.withLastName_base (by decide +kernel) suffix
    rw [hbase, hstands.isFile_ofPlace hnames hfault, hfree]
  rw [hstands.resolveEntry_eq hparts, if_pos hbelow, hnone]
  rfl

end TableDirectory
end RandomTables
