import RandomTables.Proofs.TableDirectory.Entries

/-!
# Entries that are served

An entry is served by going down its segments from the directory and trying the suffixes of table
files behind the last one. This finds a file that the entry comes from if the entry is a path at all
and one of those files has its suffix in small letters. Otherwise the entry is listed, but whatever
may be served for it comes from elsewhere.
-/
namespace RandomTables

theorem PathName.foldl_step_segments (s : Text) (kept : List Text) :
    (PathName.segments s).foldl Path.step kept = (Path.segments s).foldl Path.step kept := by
  have hstay : ∀ (kept : List Text) (name : Text), ¬ (!name.isEmpty && name != ".") →
      Path.step kept name = kept := by
    intro kept name h
    have hname : name = [] ∨ name = Path.here := by
      by_contra hname
      obtain ⟨hempty, hpoint⟩ := not_or.1 hname
      have hpoint : name ≠ "." := hpoint
      exact h (by simp [hempty, hpoint])
    rw [Path.step, if_pos hname]
  have hempty : ∀ (kept : List Text) (name : Text), ¬ decide (name ≠ []) →
      Path.step kept name = kept := by
    intro kept name h
    have hname : name = [] := by simpa using h
    rw [Path.step, if_pos (.inl hname)]
  rw [PathName.segments, Path.segments, List.foldl_filter, List.foldl_filter]
  congr 1
  funext kept name
  rw [ite_eq_left_iff.2 fun h => (hstay kept name h).symm,
    ite_eq_left_iff.2 fun h => (hempty kept name h).symm]

theorem PathName.segments_subset (s : Text) : PathName.segments s ⊆ Path.segments s := by
  intro name hname
  obtain ⟨hmem, hproper⟩ := List.mem_filter.1 hname
  have hempty : name ≠ [] := by
    rintro rfl
    cases hproper
  exact List.mem_filter.2 ⟨hmem, decide_eq_true hempty⟩

namespace TableDirectory
open PathName (byteCount)

variable {disk : Disk} {directory p file : PathName} {place names init : List Text}
  {items : List (Text × Item)} {entry last stem suffix : Text} {tried : List Text}

theorem byteCount_eq (name : Text) :
    byteCount name = byteCount (cutSuffix name).1 + byteCount (cutSuffix name).2 := by
  rw [← PathName.byteCount_append, append_cutSuffix]

/-! ## Trying suffixes -/

theorem fileAt?_singleton_eq_some_iff : fileAt? disk p [suffix] = .ok (some file) ↔
    disk.isFile (p.withLastName (p.lastName ++ suffix)) = .ok true ∧
      file = p.withLastName (p.lastName ++ suffix) := by
  rw [fileAt?, bind_eq_ok_iff]
  constructor
  · rintro ⟨isFile, hfile, hfound⟩
    cases isFile with
    | true => exact ⟨hfile, (Option.some.inj (Except.ok.inj hfound)).symm⟩
    | false => cases hfound
  · rintro ⟨hfile, rfl⟩
    exact ⟨true, hfile, rfl⟩

theorem fileAt?_singleton_eq_error_iff {fault : DiskFault} :
    fileAt? disk p [suffix] = .error fault ↔
      disk.isFile (p.withLastName (p.lastName ++ suffix)) = .error fault := by
  rw [fileAt?, bind_eq_error_iff]
  refine or_iff_left ?_
  rintro ⟨isFile, _, hfault⟩
  cases isFile <;> cases hfault

/-- Trying suffixes comes to what trying one of them does, where those before it found no file. -/
theorem fileAt?_eq_iff {result : Except DiskFault (Option PathName)} (hresult : result ≠ .ok none) :
    fileAt? disk p tried = result ↔ ∃ before suffix after, tried = before ++ suffix :: after ∧
      (∀ other ∈ before, disk.isFile (p.withLastName (p.lastName ++ other)) = .ok false) ∧
      fileAt? disk p [suffix] = result := by
  induction tried with
  | nil =>
    refine iff_of_false (fun hnone => hresult hnone.symm) ?_
    rintro ⟨before, suffix, after, htried, _⟩
    exact List.append_ne_nil_of_right_ne_nil _ (List.cons_ne_nil _ _) htried.symm
  | cons first rest ih =>
    by_cases hfile : disk.isFile (p.withLastName (p.lastName ++ first)) = .ok false
    · have hnone : fileAt? disk p [first] = .ok none := by
        rw [fileAt?, hfile]
        rfl
      have hskip : fileAt? disk p (first :: rest) = fileAt? disk p rest := by
        rw [fileAt?, hfile]
        rfl
      rw [hskip, ih]
      constructor
      · rintro ⟨before, suffix, after, rfl, hbefore, htry⟩
        exact ⟨first :: before, suffix, after, rfl, List.forall_mem_cons.2 ⟨hfile, hbefore⟩, htry⟩
      · rintro ⟨before, suffix, after, htried, hbefore, htry⟩
        cases before with
        | nil =>
          obtain ⟨rfl, rfl⟩ := List.cons.inj htried
          exact absurd (htry.symm.trans hnone) hresult
        | cons other before =>
          obtain ⟨rfl, rfl⟩ := List.cons.inj htried
          exact ⟨before, suffix, after, rfl, (List.forall_mem_cons.1 hbefore).2, htry⟩
    · have hstop : fileAt? disk p (first :: rest) = fileAt? disk p [first] := by
        rw [fileAt?, fileAt?]
        cases hisFile : disk.isFile (p.withLastName (p.lastName ++ first)) with
        | error fault => rfl
        | ok isFile =>
          cases isFile with
          | false => exact absurd hisFile hfile
          | true => rfl
      rw [hstop]
      constructor
      · exact fun htry => ⟨[], first, rest, rfl, List.forall_mem_nil _, htry⟩
      · rintro ⟨before, suffix, after, htried, hbefore, htry⟩
        cases before with
        | nil =>
          obtain ⟨rfl, rfl⟩ := List.cons.inj htried
          exact htry
        | cons other before =>
          obtain ⟨rfl, rfl⟩ := List.cons.inj htried
          exact absurd (List.forall_mem_cons.1 hbefore).1 hfile

theorem of_fileAt?_eq_some (h : fileAt? disk p tried = .ok (some file)) :
    disk.isFile file = .ok true ∧
      ∃ suffix ∈ tried, file = p.withLastName (p.lastName ++ suffix) := by
  obtain ⟨before, suffix, after, rfl, _, htry⟩ := (fileAt?_eq_iff (by simp)).1 h
  obtain ⟨hfile, rfl⟩ := fileAt?_singleton_eq_some_iff.1 htry
  exact ⟨hfile, suffix, by simp, rfl⟩

/-- One file is found if another one is there and no name that is tried before it is refused. -/
theorem exists_fileAt? (hsorted : tried.Pairwise fun a b => byteCount a ≤ byteCount b)
    (hmem : suffix ∈ tried) (hfile : disk.isFile (p.withLastName (p.lastName ++ suffix)) = .ok true)
    (hasked : ∀ other ∈ tried, byteCount other ≤ byteCount suffix →
      ∃ isFile, disk.isFile (p.withLastName (p.lastName ++ other)) = .ok isFile) :
    ∃ file, fileAt? disk p tried = .ok (some file) := by
  induction tried with
  | nil => cases hmem
  | cons first rest ih =>
    obtain ⟨hfirst, hrest⟩ := List.pairwise_cons.1 hsorted
    have hle : byteCount first ≤ byteCount suffix := by
      obtain rfl | hmem := List.mem_cons.1 hmem
      · exact Nat.le_refl _
      · exact hfirst suffix hmem
    obtain ⟨isFile, hisFile⟩ := hasked first List.mem_cons_self hle
    simp only [fileAt?, hisFile]
    cases isFile with
    | true => exact ⟨_, rfl⟩
    | false =>
      have hmem : suffix ∈ rest := by
        refine (List.mem_cons.1 hmem).resolve_left ?_
        rintro rfl
        cases hfile.symm.trans hisFile
      exact ih hrest hmem fun other hother => hasked other (List.mem_cons_of_mem _ hother)

theorem fileAt?_eq_none
    (h : ∀ suffix ∈ tried, disk.isFile (p.withLastName (p.lastName ++ suffix)) = .ok false) :
    fileAt? disk p tried = .ok none := by
  induction tried with
  | nil => rfl
  | cons suffix rest ih =>
    rw [fileAt?, h suffix List.mem_cons_self]
    exact ih fun other hother => h other (List.mem_cons_of_mem suffix hother)

theorem kind_of_fileAt?_eq_error {fault : DiskFault} (h : fileAt? disk p tried = .error fault) :
    fault.kind = .longName := by
  obtain ⟨before, suffix, after, _, _, htry⟩ := (fileAt?_eq_iff (by simp)).1 h
  exact Disk.kind_of_check_eq_error (fileAt?_singleton_eq_error_iff.1 htry)

/-! ## The way down an entry -/

/-- Where the segments of an entry lead to from its directory: the stem of the table file is not
always a name to go down to. -/
def Parts.base (place init : List Text) (last : Text) : PathName :=
  .ofPlace (Path.step (place ++ init) (cutSuffix last).1)

/-- What is served for an entry depends on where it lies and on which suffix fits it, if the places
of the directory and of the entry can be told. -/
theorem resolveEntry_of_settle {base root : PathName} (hroot : disk.settle directory = .ok root)
    (hbase : disk.settle (root.append (PathName.segments entry)) = .ok base) :
    resolveEntry disk directory entry =
      if base.isBelow root then do
        match ← (fileAt? disk base suffixes).mapError DirectoryFault.disk with
        | none => .error (.noFile entry)
        | some file =>
          let target ← (disk.settle file).mapError DirectoryFault.disk
          if target.isBelow root then .ok file else .error (.outOfBounds target.text)
      else .error (.outOfBounds base.text) := by
  unfold resolveEntry
  rw [hroot]
  change (do
    let base ← (disk.settle (root.append (PathName.segments entry))).mapError DirectoryFault.disk
    _) = _
  rw [hbase]
  change (if !base.isBelow root then _ else _) = _
  cases base.isBelow root <;> rfl

namespace Stands

theorem settle_directory (h : Stands disk directory place items) :
    disk.settle directory = .ok (.ofPlace place) :=
  Disk.settle_of_find h.plain h.found

theorem settle_entry (h : Stands disk directory place items)
    (hparts : Parts place entry init last) :
    disk.settle ((PathName.ofPlace place).append (PathName.segments entry)) =
      .ok (Parts.base place init last) := by
  have habove : ∀ name ∈ place ++ init, Path.IsName name :=
    fun name hname => (hparts.above name hname).toIsName
  have hwalk : (place ++ PathName.segments entry).foldl Path.step [] =
      Path.step (place ++ init) (cutSuffix last).1 := by
    rw [List.foldl_append, PathName.foldl_step_segments, hparts.segments_eq, ← List.foldl_append,
      ← List.append_assoc, List.foldl_concat, Path.foldl_step_of_names habove, List.nil_append]
  have hparted : ∀ name ∈ place ++ init ++ [(cutSuffix last).1],
      PathName.writingFault? name = none :=
    List.forall_mem_append.2 ⟨fun name hname => (hparts.above name hname).writable,
      List.forall_mem_singleton.2 hparts.stem_writable⟩
  have hwritable : ∀ name ∈ place ++ PathName.segments entry,
      PathName.writingFault? name = none := by
    intro name hname
    refine hparted name ?_
    rw [List.append_assoc, ← hparts.segments_eq]
    obtain hplace | hentry := List.mem_append.1 hname
    · exact List.mem_append_left _ hplace
    · exact List.mem_append_right _ (PathName.segments_subset entry hentry)
  have hsettle := Disk.settle_of_writable (p := (PathName.ofPlace place).append
    (PathName.segments entry)) h.plain (List.forall_mem_nil _) hwritable
  exact hsettle.trans (congrArg (fun place => Except.ok (PathName.ofPlace place)) hwalk)

/-- A place that can be asked for has a file exactly if one stands there. -/
theorem isFile_ofPlace (h : Stands disk directory place items)
    (hnames : ∀ name ∈ names, IsFileName name) (hfault : (PathName.ofPlace names).fault? = none) :
    disk.isFile (.ofPlace names) = .ok ((disk.root.at? names).any Item.isFile) :=
  Disk.check_append h.plain (Disk.find_root disk) hfault hnames Item.isFile

/-- The directory and the base of an entry are always settled, so what is served depends on where
the base lies and which suffix fits it. -/
theorem resolveEntry_eq (h : Stands disk directory place items)
    (hparts : Parts place entry init last) :
    resolveEntry disk directory entry =
      if (Parts.base place init last).isBelow (.ofPlace place) then do
        match ← (fileAt? disk (Parts.base place init last) suffixes).mapError
          DirectoryFault.disk with
        | none => .error (.noFile entry)
        | some file =>
          let target ← (disk.settle file).mapError DirectoryFault.disk
          if target.isBelow (.ofPlace place) then .ok file else .error (.outOfBounds target.text)
      else .error (.outOfBounds (Parts.base place init last).text) :=
  resolveEntry_of_settle h.settle_directory (h.settle_entry hparts)

/-- A file is served for an entry exactly if it is the first one that trying the suffixes behind the
base of the entry finds, and both the base and what the file leads to lie in the directory. -/
theorem resolveEntry_eq_ok_iff (h : Stands disk directory place items)
    (hparts : Parts place entry init last) :
    resolveEntry disk directory entry = .ok file ↔
      (Parts.base place init last).isBelow (.ofPlace place) ∧
      fileAt? disk (Parts.base place init last) suffixes = .ok (some file) ∧
      ∃ target, disk.settle file = .ok target ∧ target.isBelow (.ofPlace place) := by
  rw [h.resolveEntry_eq hparts]
  by_cases hbelow : (Parts.base place init last).isBelow (.ofPlace place)
  · simp only [hbelow, if_true, true_and, bind_eq_ok_iff, mapError_eq_ok_iff]
    constructor
    · rintro ⟨found, hfound, hserved⟩
      cases found with
      | none => cases hserved
      | some candidate =>
        obtain ⟨target, htarget, hserved⟩ := bind_eq_ok_iff.1 hserved
        split at hserved
        · next hin =>
          obtain rfl := Except.ok.inj hserved
          exact ⟨hfound, target, mapError_eq_ok_iff.1 htarget, hin⟩
        · cases hserved
    · rintro ⟨hfound, target, htarget, hin⟩
      refine ⟨some file, hfound, bind_eq_ok_iff.2 ⟨target, mapError_eq_ok_iff.2 htarget, ?_⟩⟩
      rw [if_pos hin]
  · rw [if_neg hbelow]
    exact iff_of_false nofun fun hserved => hbelow hserved.1

/-- The only fault that asking for an entry meets on the disk is a name that is too long. -/
theorem kind_of_resolveEntry_eq_error (h : Stands disk directory place items)
    (hparts : Parts place entry init last) {fault : DiskFault}
    (hfault : resolveEntry disk directory entry = .error (.disk fault)) :
    fault.kind = .longName := by
  rw [h.resolveEntry_eq hparts] at hfault
  split at hfault
  · obtain hfault | ⟨found, hfound, hfault⟩ := bind_eq_error_iff.1 hfault
    · obtain ⟨other, hother, heq⟩ := mapError_eq_error_iff.1 hfault
      obtain rfl := DirectoryFault.disk.inj heq
      exact kind_of_fileAt?_eq_error hother
    · cases found with
      | none => cases hfault
      | some file =>
        obtain ⟨hthere, _⟩ := of_fileAt?_eq_some (mapError_eq_ok_iff.1 hfound)
        obtain ⟨q, item, hfind, _⟩ := Disk.exists_find_of_check hthere
        obtain hsettle | ⟨target, _, hout⟩ := bind_eq_error_iff.1 hfault
        · obtain ⟨other, hother, _⟩ := mapError_eq_error_iff.1 hsettle
          cases (Disk.settle_of_find h.plain hfind).symm.trans hother
        · split at hout <;> cases hout
  · cases hfault

end Stands

/-! ## Which entries are served -/

/-- The suffix of a table file makes a name of anything without slashes. -/
theorem isName_append (hstem : Path.IsSolid stem) (hmem : suffix ∈ suffixes) :
    Path.IsName (stem ++ suffix) := by
  have hall : ∀ suffix ∈ suffixes, .char '/' ∉ suffix ∧ 2 < suffix.length := by decide
  obtain ⟨hslash, hlength⟩ := hall suffix hmem
  have hlong : 2 < (stem ++ suffix).length := by
    rw [List.length_append]
    omega
  refine ⟨⟨?_, ?_⟩, ?_, ?_⟩
  · exact List.ne_nil_of_length_pos (by omega)
  · intro hsep
    exact (List.mem_append.1 hsep).elim hstem.noSlash hslash
  · intro hhere
    rw [hhere] at hlong
    exact absurd hlong (by decide)
  · intro hup
    rw [hup] at hlong
    exact absurd hlong (by decide)

/-- With the suffix of a table file, a text that can be written still can. -/
theorem writingFault?_append (hstem : PathName.writingFault? stem = none)
    (hmem : suffix ∈ suffixes) : PathName.writingFault? (stem ++ suffix) = none := by
  have hall : ∀ suffix ∈ suffixes, PathName.writingFault? suffix = none := by decide
  exact PathName.writingFault?_eq_none_iff.2 (List.forall_mem_append.2
    ⟨PathName.writingFault?_eq_none_iff.1 hstem,
      PathName.writingFault?_eq_none_iff.1 (hall suffix hmem)⟩)

/-- One of the files that the entry comes from is served for it. -/
def IsServed (disk : Disk) (directory : PathName) (place : List Text) (items : List (Text × Item))
    (entry : Text) : Prop :=
  ∃ names, Produces items names entry ∧
    resolveEntry disk directory entry = .ok (.ofPlace (place ++ names))

namespace Parts

theorem withLastName_base (h : Path.IsName (cutSuffix last).1) (suffix : Text) :
    (Parts.base place init last).withLastName ((Parts.base place init last).lastName ++ suffix) =
      .ofPlace (place ++ init ++ [(cutSuffix last).1 ++ suffix]) := by
  rw [Parts.base, Path.step_name h, PathName.withLastName, PathName.lastName, PathName.ofPlace,
    List.dropLast_concat, List.getLastD_concat]
  rfl

theorem isBelow_ofPlace_iff {q : List Text} :
    (PathName.ofPlace q).isBelow (.ofPlace place) ↔ place <+: q ∧ place ≠ q := by
  simp [PathName.isBelow, PathName.ofPlace]

/-- The stem of a file that is served for an entry which it comes from is a name: from elsewhere, no
suffix leads back to the folder of the file. -/
theorem of_withLastName_eq (hparts : Parts place entry init last)
    (hbelow : (Parts.base place init last).isBelow (.ofPlace place))
    (heq : PathName.ofPlace (place ++ (init ++ [last])) =
      (Parts.base place init last).withLastName ((Parts.base place init last).lastName ++ suffix)) :
    Path.IsName (cutSuffix last).1 ∧ (cutSuffix last).2 = suffix := by
  obtain ⟨hstarts, hne⟩ := isBelow_ofPlace_iff.1 hbelow
  set base := Path.step (place ++ init) (cutSuffix last).1 with hbase
  have hplaces : place ++ init ++ [last] = base.dropLast ++ [base.getLastD [] ++ suffix] := by
    rw [List.append_assoc]
    exact congrArg PathName.names heq
  obtain ⟨hfolder, hlast⟩ := List.append_inj' hplaces rfl
  have hlength : base.length = (place ++ init).length + 1 := by
    have hlonger : place.length < base.length :=
      lt_of_le_of_ne hstarts.length_le fun hlen => hne (hstarts.eq_of_length hlen)
    have hdropped := congrArg List.length hfolder
    rw [List.length_dropLast] at hdropped
    omega
  have hname : Path.IsName (cutSuffix last).1 := by
    refine ⟨hparts.stem, ?_, ?_⟩
    · intro hhere
      rw [hbase, hhere, Path.step_here] at hlength
      omega
    · intro hup
      rw [hbase, hup, Path.step_up, List.length_dropLast] at hlength
      omega
  rw [hbase, Path.step_name hname, List.getLastD_concat] at hlast
  have hsuffix : (cutSuffix last).1 ++ (cutSuffix last).2 = (cutSuffix last).1 ++ suffix := by
    rw [append_cutSuffix]
    exact List.singleton_inj.1 hlast
  exact ⟨hname, List.append_cancel_left hsuffix⟩

/-- With a suffix that is no longer than its own, the stem of a table file is the name of a file
again. -/
theorem isFileName_append (hparts : Parts place entry init last) (hmem : suffix ∈ suffixes)
    (hle : byteCount suffix ≤ byteCount (cutSuffix last).2) :
    IsFileName ((cutSuffix last).1 ++ suffix) := by
  refine ⟨isName_append hparts.stem hmem, writingFault?_append hparts.stem_writable hmem, ?_⟩
  have hshort := hparts.last_name.short
  rw [byteCount_eq] at hshort
  rw [PathName.byteCount_append]
  omega

end Parts

theorem isTableName_append (hstem : stem ≠ []) (hmem : suffix ∈ suffixes) :
    isTableName (stem ++ suffix) = true := by
  have hlower : ∀ suffix ∈ suffixes, suffixes.contains (Text.lower suffix) = true := by
    decide +kernel
  rw [isTableName, cutSuffix_append hstem hmem]
  exact hlower suffix hmem

namespace Stands

/-- Where a file is found below the root, one stands there. -/
theorem of_isFile_eq_true (h : Stands disk directory place items)
    (hnames : ∀ name ∈ names, Path.IsName name) (hfile : disk.isFile (.ofPlace names) = .ok true) :
    ∃ content, disk.root.at? names = some (.file content) ∧
      disk.find (.ofPlace names) = .ok (names, .file content) := by
  obtain ⟨q, item, hfind, hitem⟩ := Disk.exists_find_of_check hfile
  obtain ⟨_, hat, hq, _⟩ := Disk.of_find_eq_ok h.plain hfind
  have hq : q = names := hq.trans (Path.foldl_step_of_names hnames [])
  subst hq
  cases item with
  | file content => exact ⟨content, hat, hfind⟩
  | link | folder => cases hitem

/-- A file is found behind the base of an entry if it has one with its suffix in small letters. -/
theorem exists_candidate (h : Stands disk directory place items)
    (hparts : Parts place entry init last) (hmem : init ++ [last] ∈ Item.leavesOfEntries items)
    (hname : Path.IsName (cutSuffix last).1) (hsuffix : (cutSuffix last).2 ∈ suffixes) :
    ∃ file, fileAt? disk (Parts.base place init last) suffixes = .ok (some file) := by
  -- The shorter suffixes are tried first, so no name is too long before the one that is there.
  have hsorted : suffixes.Pairwise fun a b => byteCount a ≤ byteCount b := by decide
  have hfault : (PathName.ofPlace (place ++ init ++ [last])).fault? = none := by
    rw [List.append_assoc]
    exact (h.askable _ hmem).2
  have hasked : ∀ other ∈ suffixes, byteCount other ≤ byteCount (cutSuffix last).2 →
      disk.isFile (.ofPlace (place ++ init ++ [(cutSuffix last).1 ++ other])) =
        .ok ((disk.root.at? (place ++ init ++ [(cutSuffix last).1 ++ other])).any Item.isFile) := by
    intro other hother hle
    have hfile := hparts.isFileName_append hother hle
    have hnames := List.forall_mem_append.2 ⟨hparts.above, List.forall_mem_singleton.2 hfile⟩
    refine h.isFile_ofPlace hnames (PathName.fault?_concat hfault hfile.writable ?_)
    rw [byteCount_eq last, PathName.byteCount_append]
    omega
  refine exists_fileAt? hsorted hsuffix ?_ fun other hother hle => ?_
  · obtain ⟨content, hat⟩ := h.mem_leaves_iff.1 hmem
    rw [Parts.withLastName_base hname, hasked _ hsuffix (Nat.le_refl _), append_cutSuffix,
      List.append_assoc, hat]
    rfl
  · rw [Parts.withLastName_base hname]
    exact ⟨_, hasked other hother hle⟩

/-- What is found behind the base of an absolute entry is one of the files that the entry comes
from, and is served for it. -/
theorem of_candidate (h : Stands disk directory place items) (hparts : Parts place entry init last)
    (hname : Path.IsName (cutSuffix last).1)
    (hfile : fileAt? disk (Parts.base place init last) suffixes = .ok (some file)) :
    IsServed disk directory place items entry := by
  obtain ⟨hthere, suffix, hmem, heq⟩ := of_fileAt?_eq_some hfile
  rw [Parts.withLastName_base hname, List.append_assoc] at heq
  subst heq
  have hnames : ∀ name ∈ place ++ init ++ [(cutSuffix last).1 ++ suffix], Path.IsName name :=
    List.forall_mem_append.2 ⟨fun name hname => (hparts.above name hname).toIsName,
      List.forall_mem_singleton.2 (isName_append hparts.stem hmem)⟩
  rw [List.append_assoc] at hnames
  have hbase : (Parts.base place init last).isBelow (.ofPlace place) := by
    rw [Parts.base, Path.step_name hname, List.append_assoc]
    refine Parts.isBelow_ofPlace_iff.2 ⟨List.prefix_append _ _, ?_⟩
    simp
  obtain ⟨content, hat, hfind⟩ := h.of_isFile_eq_true hnames hthere
  refine ⟨init ++ [(cutSuffix last).1 ++ suffix], ⟨?_, ?_, ?_⟩, ?_⟩
  · exact h.mem_leaves_iff.2 ⟨content, hat⟩
  · rw [List.getLastD_concat]
    exact isTableName_append hparts.stem.ne_nil hmem
  · rw [entryOf_concat, cutSuffix_append hparts.stem.ne_nil hmem]
    exact hparts.entry_eq.symm
  · have hsettle := Disk.settle_of_find h.plain hfind
    refine (h.resolveEntry_eq_ok_iff hparts).2 ⟨hbase, hfile, _, hsettle, ?_⟩
    refine Parts.isBelow_ofPlace_iff.2 ⟨List.prefix_append _ _, ?_⟩
    simp

/-- An entry is served from one of its files exactly if it is an absolute path and one of those
files has its suffix in small letters. -/
theorem isServed_iff (h : Stands disk directory place items) :
    IsServed disk directory place items entry ↔ Path.IsAbsolute entry ∧
      ∃ names, Produces items names entry ∧ (cutSuffix (names.getLastD [])).2 ∈ suffixes := by
  constructor
  · rintro ⟨names, hproduces, hserved⟩
    obtain ⟨init, last, rfl, hparts⟩ := hproduces.exists_parts h
    obtain ⟨hbelow, hfile, _⟩ := (h.resolveEntry_eq_ok_iff hparts).1 hserved
    obtain ⟨_, suffix, hmem, heq⟩ := of_fileAt?_eq_some hfile
    obtain ⟨hname, hsuffix⟩ := hparts.of_withLastName_eq hbelow heq
    refine ⟨hparts.isAbsolute_iff.2 hname, _, hproduces, ?_⟩
    rw [List.getLastD_concat, hsuffix]
    exact hmem
  · rintro ⟨habsolute, names, hproduces, hsuffix⟩
    obtain ⟨init, last, rfl, hparts⟩ := hproduces.exists_parts h
    have hname := hparts.isAbsolute_iff.1 habsolute
    rw [List.getLastD_concat] at hsuffix
    obtain ⟨file, hfile⟩ := h.exists_candidate hparts hproduces.file hname hsuffix
    exact h.of_candidate hparts hname hfile

end Stands
end TableDirectory
end RandomTables
