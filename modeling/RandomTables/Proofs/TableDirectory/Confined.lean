import RandomTables.Proofs.Disk.Refused
import RandomTables.Proofs.TableDirectory.Agreement

/-!
# Files that are served lie in the directory

An entry may be any text: it may go up, leave the directory and come back. Where it lies is told by
walking along its segments from the directory, and only what lies strictly below the directory is
looked for. A suffix put behind the last name does not lead out again, so whatever is served is a
table file of the directory. All other entries are refused, but not always as entries: one that
cannot be written, and one whose file would have too long a name, fail on the disk.
-/
namespace RandomTables

theorem PathName.writingFault?_segments_iff {s : Text} :
    (∀ name ∈ PathName.segments s, PathName.writingFault? name = none) ↔
      PathName.writingFault? s = none := by
  have hslash : (CodePoint.char '/').pathBytes?.isSome ∧ CodePoint.char '/' ≠ '\x00' := by decide
  have hpoint : ∀ c ∈ ("." : Text), c.pathBytes?.isSome ∧ c ≠ '\x00' := by decide
  simp only [PathName.writingFault?_eq_none_iff]
  constructor
  · intro h c hc
    by_cases hsep : c = '/'
    · exact hsep ▸ hslash
    rw [← Text.joinWith_split '/' s] at hc
    obtain ⟨piece, hpiece, hc⟩ := (Text.mem_joinWith_iff (mt List.mem_singleton.1 hsep)).1 hc
    by_cases hsegment : piece ∈ PathName.segments s
    · exact h piece hsegment c hc
    · by_cases hhere : piece = "."
      · exact hpoint c (hhere ▸ hc)
      · refine absurd (List.mem_filter.2 ⟨hpiece, ?_⟩) hsegment
        simp [List.ne_nil_of_mem hc, hhere]
  · intro h name hname c hc
    have hpiece : name ∈ Text.split '/' s := (List.mem_filter.1 hname).1
    have hsep : c ≠ '/' := fun hslash => Text.not_mem_of_mem_split hpiece (hslash ▸ hc)
    refine h c ?_
    rw [← Text.joinWith_split '/' s]
    exact (Text.mem_joinWith_iff (mt List.mem_singleton.1 hsep)).2 ⟨name, hpiece, hc⟩

namespace TableDirectory
open PathName (writingFault?)

variable {disk : Disk} {directory file : PathName} {place base : List Text} {entry suffix : Text}

/-! ## Places -/

/-- The place lies below another one and is not that place itself. -/
def LiesBelow (above place : List Text) : Prop := ∃ names, names ≠ [] ∧ place = above ++ names

theorem liesBelow_iff :
    LiesBelow base place ↔ (PathName.ofPlace place).isBelow (.ofPlace base) := by
  rw [Parts.isBelow_ofPlace_iff]
  constructor
  · rintro ⟨names, hne, rfl⟩
    exact ⟨List.prefix_append _ _, by simpa using hne⟩
  · rintro ⟨⟨names, rfl⟩, hne⟩
    exact ⟨names, by simpa using hne, rfl⟩

/-- Where a directory lies, whether it is there or not. -/
def rootPlace (disk : Disk) (directory : PathName) : List Text :=
  directory.names.foldl Path.step (disk.start directory)

/-- Where an entry lies: single points and empty segments stay, and two points go up. -/
def basePlace (disk : Disk) (directory : PathName) (entry : Text) : List Text :=
  (PathName.segments entry).foldl Path.step (rootPlace disk directory)

/-- The place with a suffix behind its last name. -/
def candidate (place : List Text) (suffix : Text) : List Text :=
  place.dropLast ++ [place.getLastD [] ++ suffix]

theorem candidate_concat (place : List Text) (name suffix : Text) :
    candidate (place ++ [name]) suffix = place ++ [name ++ suffix] := by
  rw [candidate, List.dropLast_concat, List.getLastD_concat]

theorem withLastName_ofPlace (place : List Text) (suffix : Text) :
    (PathName.ofPlace place).withLastName ((PathName.ofPlace place).lastName ++ suffix) =
      .ofPlace (candidate place suffix) := rfl

/-- A suffix does not lead out of what an entry lies below. -/
theorem LiesBelow.exists_candidate (h : LiesBelow place base) (suffix : Text) :
    ∃ names name, base = place ++ (names ++ [name]) ∧
      candidate base suffix = place ++ (names ++ [name ++ suffix]) := by
  obtain ⟨rest, hne, rfl⟩ := h
  obtain rfl | ⟨names, name, rfl⟩ := List.eq_nil_or_concat rest
  · exact absurd rfl hne
  · refine ⟨names, name, by simp, ?_⟩
    rw [List.concat_eq_append, ← List.append_assoc, candidate_concat, List.append_assoc]

/-! ## What is asked of the disk -/

/-- Entries can be asked of a directory: there are no links, and its name can be written. -/
structure Askable (disk : Disk) (directory : PathName) : Prop where
  plain : disk.root.IsPlain
  start : ∀ name ∈ disk.start directory, Path.IsName name ∧ writingFault? name = none
  names : ∀ name ∈ directory.names, Path.IsSolid name ∧ writingFault? name = none

def HasFile (disk : Disk) (place : List Text) : Prop :=
  ∃ content, disk.root.at? place = some (.file content)

theorem any_isFile_iff : (disk.root.at? place).any Item.isFile = true ↔ HasFile disk place := by
  unfold HasFile
  cases disk.root.at? place with
  | none => exact iff_of_false nofun nofun
  | some item => cases item <;> simp [Item.isFile]

/-- Trying the suffixes comes to this one: with those before it no name is too long and no file is
there. -/
def ComesTo (disk : Disk) (base : List Text) (suffix : Text) : Prop :=
  ∃ before after, suffixes = before ++ suffix :: after ∧ ∀ other ∈ before,
    ¬ disk.IsTooLong (candidate base other) ∧ ¬ HasFile disk (candidate base other)

theorem ComesTo.mem (h : ComesTo disk base suffix) : suffix ∈ suffixes := by
  obtain ⟨before, after, hsuffixes, _⟩ := h
  rw [hsuffixes]
  exact List.mem_append_right _ List.mem_cons_self

section Places
variable (hplain : disk.root.IsPlain)
  (hnames : ∀ name ∈ place, Path.IsName name ∧ writingFault? name = none)
include hplain hnames

theorem isFile_eq_ok_iff {isFile : Bool} : disk.isFile (.ofPlace place) = .ok isFile ↔
    ¬ disk.IsTooLong place ∧ (isFile = true ↔ HasFile disk place) := by
  by_cases hlong : disk.IsTooLong place
  · rw [Disk.isFile, Disk.check_of_tooLong hplain hnames hlong]
    exact iff_of_false (by simp) fun h => h.1 hlong
  · rw [Disk.isFile, Disk.check_of_not_tooLong hplain hnames hlong, ← any_isFile_iff,
      Except.ok.injEq]
    cases (disk.root.at? place).any Item.isFile <;> cases isFile <;> simp [hlong]

theorem isFile_eq_error_iff :
    (∃ fault, disk.isFile (.ofPlace place) = .error fault) ↔ disk.IsTooLong place := by
  by_cases hlong : disk.IsTooLong place
  · rw [Disk.isFile, Disk.check_of_tooLong hplain hnames hlong]
    exact iff_of_true ⟨_, rfl⟩ hlong
  · rw [Disk.isFile, Disk.check_of_not_tooLong hplain hnames hlong]
    exact iff_of_false (by simp) hlong

end Places

namespace Askable
variable (h : Askable disk directory)
include h

theorem names_rootPlace :
    ∀ name ∈ rootPlace disk directory, Path.IsName name ∧ writingFault? name = none := by
  intro name hname
  refine ⟨?_, ?_⟩
  · exact Path.name_of_mem_foldl_step (fun name hname => (h.names name hname).1)
      (fun name hname => (h.start name hname).1) name hname
  · obtain hstart | hnames := Disk.mem_foldl_step hname
    · exact (h.start name hstart).2
    · exact (h.names name hnames).2

theorem settle_directory : disk.settle directory = .ok (.ofPlace (rootPlace disk directory)) :=
  Disk.settle_of_writable h.plain (fun name hname => (h.start name hname).2)
    fun name hname => (h.names name hname).2

theorem writable_segments_iff :
    (∀ name ∈ ((PathName.ofPlace (rootPlace disk directory)).append
        (PathName.segments entry)).names, writingFault? name = none) ↔
      writingFault? entry = none := by
  rw [← PathName.writingFault?_segments_iff]
  refine List.forall_mem_append.trans (and_iff_right fun name hname => ?_)
  exact (h.names_rootPlace name hname).2

theorem settle_entry (hwritable : writingFault? entry = none) :
    disk.settle ((PathName.ofPlace (rootPlace disk directory)).append (PathName.segments entry)) =
      .ok (.ofPlace (basePlace disk directory entry)) := by
  have hroot := Path.foldl_step_of_names (fun name hname => (h.names_rootPlace name hname).1) []
  rw [Disk.settle_of_writable h.plain (List.forall_mem_nil _) (h.writable_segments_iff.2 hwritable)]
  change Except.ok (PathName.ofPlace ((rootPlace disk directory ++ PathName.segments entry).foldl
    Path.step [])) = _
  rw [List.foldl_append, hroot, List.nil_append]
  rfl

theorem names_basePlace (hwritable : writingFault? entry = none) :
    ∀ name ∈ basePlace disk directory entry, Path.IsName name ∧ writingFault? name = none := by
  intro name hname
  refine ⟨?_, ?_⟩
  · exact Path.name_of_mem_foldl_step
      (fun name hname => Path.solid_of_mem_segments (PathName.segments_subset entry hname))
      (fun name hname => (h.names_rootPlace name hname).1) name hname
  · obtain hroot | hentry := Disk.mem_foldl_step hname
    · exact (h.names_rootPlace name hroot).2
    · exact PathName.writingFault?_segments_iff.2 hwritable name hentry

theorem names_candidate (hwritable : writingFault? entry = none)
    (hbelow : LiesBelow (rootPlace disk directory) (basePlace disk directory entry))
    (hmem : suffix ∈ suffixes) :
    ∀ name ∈ candidate (basePlace disk directory entry) suffix,
      Path.IsName name ∧ writingFault? name = none := by
  have hnames := h.names_basePlace hwritable
  obtain ⟨names, last, hbase, hcandidate⟩ := hbelow.exists_candidate suffix
  rw [hbase, ← List.append_assoc] at hnames
  rw [hcandidate, ← List.append_assoc]
  obtain ⟨habove, hlast⟩ := List.forall_mem_append.1 hnames
  obtain ⟨hname, hlast⟩ := List.forall_mem_singleton.1 hlast
  exact List.forall_mem_append.2 ⟨habove, List.forall_mem_singleton.2
    ⟨isName_append hname.toIsSolid hmem, writingFault?_append hlast hmem⟩⟩

/-! ## What becomes of an entry -/

/-- What is found for an entry is served: it lies where it was looked for. -/
theorem resolveEntry_of_below (hwritable : writingFault? entry = none)
    (hbelow : LiesBelow (rootPlace disk directory) (basePlace disk directory entry)) :
    resolveEntry disk directory entry =
      match fileAt? disk (.ofPlace (basePlace disk directory entry)) suffixes with
      | .error fault => .error (.disk fault)
      | .ok none => .error (.noFile entry)
      | .ok (some file) => .ok file := by
  rw [resolveEntry_of_settle h.settle_directory (h.settle_entry hwritable),
    if_pos (liesBelow_iff.1 hbelow)]
  cases htry : fileAt? disk (.ofPlace (basePlace disk directory entry)) suffixes with
  | error fault => rfl
  | ok found =>
    cases found with
    | none => rfl
    | some file =>
      obtain ⟨hthere, suffix, hmem, rfl⟩ := of_fileAt?_eq_some htry
      rw [withLastName_ofPlace] at hthere ⊢
      obtain ⟨place, item, hfind, _⟩ := Disk.exists_find_of_check hthere
      have hnames := fun name hname => (h.names_candidate hwritable hbelow hmem name hname).1
      have hplace := (Disk.of_find_eq_ok h.plain hfind).2.2.1.trans
        (Path.foldl_step_of_names hnames [])
      have hsettle := hplace ▸ Disk.settle_of_find h.plain hfind
      have hin : LiesBelow (rootPlace disk directory)
          (candidate (basePlace disk directory entry) suffix) := by
        obtain ⟨names, name, _, hcandidate⟩ := hbelow.exists_candidate suffix
        exact ⟨names ++ [name ++ suffix], by simp, hcandidate⟩
      change (do
        let target ← (disk.settle (.ofPlace (candidate _ suffix))).mapError DirectoryFault.disk
        _) = _
      rw [hsettle]
      exact if_pos (liesBelow_iff.1 hin)

theorem resolveEntry_of_not_below (hwritable : writingFault? entry = none)
    (hbelow : ¬ LiesBelow (rootPlace disk directory) (basePlace disk directory entry)) :
    resolveEntry disk directory entry =
      .error (.outOfBounds (PathName.ofPlace (basePlace disk directory entry)).text) := by
  rw [resolveEntry_of_settle h.settle_directory (h.settle_entry hwritable),
    if_neg fun hin => hbelow (liesBelow_iff.2 hin)]

theorem resolveEntry_of_unwritable (hwritable : writingFault? entry ≠ none) :
    ∃ fault, resolveEntry disk directory entry = .error (.disk fault) := by
  have hnames := fun hall => hwritable (h.writable_segments_iff.1 hall)
  obtain ⟨fault, hsettle⟩ := Disk.settle_of_unwritable h.plain hnames
  refine ⟨fault, bind_eq_error_iff.2 (.inr ⟨.ofPlace (rootPlace disk directory), ?_, ?_⟩)⟩
  · exact mapError_eq_ok_iff.2 h.settle_directory
  · exact bind_eq_error_iff.2 (.inl (mapError_eq_error_iff.2 ⟨fault, hsettle, rfl⟩))

theorem comesTo_iff (hwritable : writingFault? entry = none)
    (hbelow : LiesBelow (rootPlace disk directory) (basePlace disk directory entry)) :
    ComesTo disk (basePlace disk directory entry) suffix ↔ ∃ before after,
      suffixes = before ++ suffix :: after ∧ ∀ other ∈ before,
        disk.isFile (.ofPlace (candidate (basePlace disk directory entry) other)) = .ok false := by
  refine exists_congr fun before => exists_congr fun after => and_congr_right fun hsuffixes => ?_
  refine forall₂_congr fun other hother => ?_
  have hmem : other ∈ suffixes := hsuffixes ▸ List.mem_append_left _ hother
  rw [isFile_eq_ok_iff h.plain (h.names_candidate hwritable hbelow hmem)]
  simp

/-- Which file is served for an entry. -/
theorem resolveEntry_eq_ok_iff : resolveEntry disk directory entry = .ok file ↔
    writingFault? entry = none ∧
    LiesBelow (rootPlace disk directory) (basePlace disk directory entry) ∧
    ∃ suffix, ComesTo disk (basePlace disk directory entry) suffix ∧
      ¬ disk.IsTooLong (candidate (basePlace disk directory entry) suffix) ∧
      HasFile disk (candidate (basePlace disk directory entry) suffix) ∧
      file = .ofPlace (candidate (basePlace disk directory entry) suffix) := by
  by_cases hwritable : writingFault? entry = none
  swap
  · obtain ⟨fault, hfault⟩ := h.resolveEntry_of_unwritable hwritable
    rw [hfault]
    exact iff_of_false nofun fun hserved => hwritable hserved.1
  by_cases hbelow : LiesBelow (rootPlace disk directory) (basePlace disk directory entry)
  swap
  · rw [h.resolveEntry_of_not_below hwritable hbelow]
    exact iff_of_false nofun fun hserved => hbelow hserved.2.1
  have hserved : resolveEntry disk directory entry = .ok file ↔
      fileAt? disk (.ofPlace (basePlace disk directory entry)) suffixes = .ok (some file) := by
    rw [h.resolveEntry_of_below hwritable hbelow]
    cases fileAt? disk (.ofPlace (basePlace disk directory entry)) suffixes with
    | error => simp
    | ok found => cases found <;> simp
  rw [hserved, fileAt?_eq_iff (by simp)]
  simp only [fileAt?_singleton_eq_some_iff, withLastName_ofPlace]
  constructor
  · rintro ⟨before, suffix, after, hsuffixes, hbefore, hfile, rfl⟩
    have hmem : suffix ∈ suffixes := by simp [hsuffixes]
    have hnames := h.names_candidate hwritable hbelow hmem
    obtain ⟨hlong, hthere⟩ := (isFile_eq_ok_iff h.plain hnames).1 hfile
    exact ⟨hwritable, hbelow, suffix,
      (h.comesTo_iff hwritable hbelow).2 ⟨before, after, hsuffixes, hbefore⟩, hlong,
      hthere.1 rfl, rfl⟩
  · rintro ⟨_, _, suffix, hcomes, hlong, hthere, rfl⟩
    have hnames := h.names_candidate hwritable hbelow hcomes.mem
    obtain ⟨before, after, hsuffixes, hbefore⟩ := (h.comesTo_iff hwritable hbelow).1 hcomes
    refine ⟨before, suffix, after, hsuffixes, hbefore, ?_, rfl⟩
    exact (isFile_eq_ok_iff h.plain hnames).2 ⟨hlong, iff_of_true rfl hthere⟩

/-- Which entries fail on the disk. -/
theorem resolveEntry_eq_disk_iff :
    (∃ fault, resolveEntry disk directory entry = .error (.disk fault)) ↔
      writingFault? entry ≠ none ∨
      LiesBelow (rootPlace disk directory) (basePlace disk directory entry) ∧
        ∃ suffix, ComesTo disk (basePlace disk directory entry) suffix ∧
          disk.IsTooLong (candidate (basePlace disk directory entry) suffix) := by
  by_cases hwritable : writingFault? entry = none
  swap
  · exact iff_of_true (h.resolveEntry_of_unwritable hwritable) (.inl hwritable)
  rw [or_iff_right (not_not_intro hwritable)]
  by_cases hbelow : LiesBelow (rootPlace disk directory) (basePlace disk directory entry)
  swap
  · rw [h.resolveEntry_of_not_below hwritable hbelow]
    exact iff_of_false nofun fun hfault => hbelow hfault.1
  have hfaulty : ∀ fault, resolveEntry disk directory entry = .error (.disk fault) ↔
      fileAt? disk (.ofPlace (basePlace disk directory entry)) suffixes = .error fault := by
    intro fault
    rw [h.resolveEntry_of_below hwritable hbelow]
    cases fileAt? disk (.ofPlace (basePlace disk directory entry)) suffixes with
    | error => simp
    | ok found => cases found <;> simp
  simp only [hfaulty]
  constructor
  · rintro ⟨fault, hfault⟩
    obtain ⟨before, suffix, after, hsuffixes, hbefore, htry⟩ := (fileAt?_eq_iff (by simp)).1 hfault
    have hmem : suffix ∈ suffixes := by simp [hsuffixes]
    have hnames := h.names_candidate hwritable hbelow hmem
    exact ⟨hbelow, suffix,
      (h.comesTo_iff hwritable hbelow).2 ⟨before, after, hsuffixes, hbefore⟩,
      (isFile_eq_error_iff h.plain hnames).1 ⟨fault, fileAt?_singleton_eq_error_iff.1 htry⟩⟩
  · rintro ⟨_, suffix, hcomes, hlong⟩
    have hnames := h.names_candidate hwritable hbelow hcomes.mem
    obtain ⟨fault, hfault⟩ := (isFile_eq_error_iff h.plain hnames).2 hlong
    obtain ⟨before, after, hsuffixes, hbefore⟩ := (h.comesTo_iff hwritable hbelow).1 hcomes
    refine ⟨fault, (fileAt?_eq_iff (by simp)).2 ⟨before, suffix, after, hsuffixes, hbefore, ?_⟩⟩
    exact fileAt?_singleton_eq_error_iff.2 hfault

/-- Whatever an entry is, what is served for it is a file with the suffix of a table file strictly
below the directory. An entry that lies nowhere below the directory is refused, be it the directory
itself, a place above it or one beside it. The others are served if there is a file behind one of
the suffixes, where the suffixes are tried in order. An entry fails on the disk instead of being
refused exactly if it cannot be written, or if a name is too long with a suffix that is tried. -/
theorem resolveEntry_confined :
    (∀ file, resolveEntry disk directory entry = .ok file →
        ∃ names content, names ≠ [] ∧ file = .ofPlace (rootPlace disk directory ++ names) ∧
          disk.root.at? (rootPlace disk directory ++ names) = some (.file content) ∧
          (cutSuffix (names.getLastD [])).2 ∈ suffixes) ∧
      (writingFault? entry = none →
        ¬ LiesBelow (rootPlace disk directory) (basePlace disk directory entry) →
        resolveEntry disk directory entry =
          .error (.outOfBounds (PathName.ofPlace (basePlace disk directory entry)).text)) ∧
      (∀ file, resolveEntry disk directory entry = .ok file ↔
        writingFault? entry = none ∧
        LiesBelow (rootPlace disk directory) (basePlace disk directory entry) ∧
        ∃ suffix, ComesTo disk (basePlace disk directory entry) suffix ∧
          ¬ disk.IsTooLong (candidate (basePlace disk directory entry) suffix) ∧
          HasFile disk (candidate (basePlace disk directory entry) suffix) ∧
          file = .ofPlace (candidate (basePlace disk directory entry) suffix)) ∧
      ((∃ fault, resolveEntry disk directory entry = .error (.disk fault)) ↔
        writingFault? entry ≠ none ∨
        LiesBelow (rootPlace disk directory) (basePlace disk directory entry) ∧
          ∃ suffix, ComesTo disk (basePlace disk directory entry) suffix ∧
            disk.IsTooLong (candidate (basePlace disk directory entry) suffix)) := by
  refine ⟨fun file hserved => ?_, h.resolveEntry_of_not_below,
    fun file => h.resolveEntry_eq_ok_iff, h.resolveEntry_eq_disk_iff⟩
  obtain ⟨hwritable, hbelow, suffix, hcomes, _, ⟨content, hat⟩, rfl⟩ :=
    h.resolveEntry_eq_ok_iff.1 hserved
  have hnames := h.names_basePlace hwritable
  obtain ⟨names, name, hbase, hcandidate⟩ := hbelow.exists_candidate suffix
  have hname : Path.IsName name := (hnames name (by simp [hbase])).1
  rw [hcandidate] at hat ⊢
  refine ⟨names ++ [name ++ suffix], content, by simp, rfl, hat, ?_⟩
  rw [List.getLastD_concat, cutSuffix_append hname.ne_nil hcomes.mem]
  exact hcomes.mem

end Askable

/-! ## Entries of a shelf -/

theorem shelf_askable {items : List (Text × Item)} (hplain : (Item.folder items).IsPlain) :
    Askable (shelf items) shelfName := by
  have hname : IsFileName "tables" ∧ ("tables" : Text) ∉ ([] : List Text) := by decide +kernel
  have hnames : ∀ name ∈ shelfName.names, Path.IsSolid name ∧ writingFault? name = none := by
    decide +kernel
  exact ⟨⟨hname, hplain, trivial⟩, List.forall_mem_nil _, hnames⟩

/-- An entry that leaves the directory of gems and comes back is served. One that ends at the
directory itself is refused. -/
theorem gems_confined :
    Askable (shelf gems) shelfName ∧
      (∃ names content, names ≠ [] ∧
        resolveEntry (shelf gems) shelfName "//../tables/./gem" =
          .ok (.ofPlace ("tables" :: names)) ∧
        (shelf gems).root.at? ("tables" :: names) = some (.file content)) ∧
      resolveEntry (shelf gems) shelfName "gem/.." = .error (.outOfBounds "/tables") := by
  have haskable : Askable (shelf gems) shelfName := shelf_askable (by decide +kernel)
  have hroot : rootPlace (shelf gems) shelfName = ["tables"] := by decide +kernel
  have hbase : basePlace (shelf gems) shelfName "//../tables/./gem" = ["tables", "gem"] := by
    decide +kernel
  have hself : basePlace (shelf gems) shelfName "gem/.." = ["tables"] := by decide +kernel
  have hat : (shelf gems).root.at? ["tables", "gem.json"] = some (.file ruby.toUTF8) := by
    simp [shelf, gems, Item.at?, Item.lookup]
  have hshort : ∀ suffix ∈ suffixes,
      ¬ (shelf gems).IsTooLong (candidate ["tables", "gem"] suffix) := by
    have hall : ∀ suffix ∈ suffixes,
        (∀ name ∈ candidate ["tables", "gem"] suffix,
          PathName.byteCount name ≤ PathName.maxNameBytes) ∧
        PathName.byteCount (PathName.ofPlace (candidate ["tables", "gem"] suffix)).text ≤
          PathName.maxPathBytes := by decide +kernel
    exact fun suffix hmem => Disk.not_isTooLong (hall suffix hmem).1 (hall suffix hmem).2
  have hcomes : ComesTo (shelf gems) ["tables", "gem"] ".json" := by
    have hfree : ∀ other ∈ ([".yml", ".yaml"] : List Text), other ∈ suffixes ∧
        ((shelf gems).root.at? (candidate ["tables", "gem"] other)).any Item.isFile = false := by
      decide +kernel
    refine ⟨[".yml", ".yaml"], [], rfl, fun other hother => ?_⟩
    obtain ⟨hmem, hnone⟩ := hfree other hother
    refine ⟨hshort other hmem, fun hthere => ?_⟩
    rw [any_isFile_iff.2 hthere] at hnone
    cases hnone
  have hgem : resolveEntry (shelf gems) shelfName "//../tables/./gem" =
      .ok (.ofPlace ["tables", "gem.json"]) := by
    refine (haskable.resolveEntry_confined.2.2.1 _).2 ⟨by decide +kernel, ?_, ".json", ?_⟩
    · rw [hroot, hbase]
      exact ⟨["gem"], by simp, rfl⟩
    · rw [hbase]
      exact ⟨hcomes, hshort ".json" hcomes.mem, ⟨_, hat⟩, rfl⟩
  refine ⟨haskable, ?_, ?_⟩
  · obtain ⟨names, content, hne, hfile, hthere, _⟩ := haskable.resolveEntry_confined.1 _ hgem
    rw [hroot] at hfile hthere
    exact ⟨names, content, hne, hgem.trans (congrArg Except.ok hfile), hthere⟩
  · have hout : ¬ LiesBelow ["tables"] ["tables"] := by
      rintro ⟨names, hne, hnames⟩
      exact hne (List.self_eq_append_right.1 hnames)
    rw [haskable.resolveEntry_confined.2.1 (by decide +kernel) (by rwa [hroot, hself]), hself]
    rfl

/-- An entry of 252 characters, which a suffix makes too long for the name of a file. -/
def longEntry : Text := Text.copies 252 'a'

/-- The long entry is not refused: asking for its file fails on the disk. -/
theorem longEntry_fails : Askable (shelf gems) shelfName ∧ .char '\x00' ∉ longEntry ∧
    ∃ fault, resolveEntry (shelf gems) shelfName longEntry = .error (.disk fault) := by
  have haskable : Askable (shelf gems) shelfName := shelf_askable (by decide +kernel)
  have hroot : rootPlace (shelf gems) shelfName = ["tables"] := by decide +kernel
  have hbase : basePlace (shelf gems) shelfName longEntry = [("tables" : Text), longEntry] := by
    decide +kernel
  have hbytes : PathName.maxNameBytes < PathName.byteCount (longEntry ++ ".yml") := by
    decide +kernel
  have hfolder : (shelf gems).root.at? ["tables"] = some (.folder gems) := by
    simp [shelf, Item.at?, Item.lookup]
  refine ⟨haskable, by decide +kernel, haskable.resolveEntry_eq_disk_iff.2 (.inr ⟨?_, ".yml", ?_⟩)⟩
  · rw [hroot, hbase]
    exact ⟨[longEntry], by simp, rfl⟩
  · rw [hbase]
    refine ⟨⟨[], [".yaml", ".json"], rfl, List.forall_mem_nil _⟩, .inr ?_⟩
    exact ⟨["tables"], longEntry ++ ".yml", [], gems, rfl, hfolder, hbytes⟩

end TableDirectory
end RandomTables
