import RandomTables.Proofs.Disk.Followed
import RandomTables.Proofs.Fallible
import RandomTables.Proofs.Path.Again
import RandomTables.TableDirectory.Basic

/-!
# Entries

The entry of a table file is written like a path: a slash in front of each folder on the way down to
the file, and one in front of its name without suffix. So an entry tells the folders and that name,
which may be no name of a file itself. The entries that a directory lists are those of its table
files.
-/
namespace RandomTables.TableDirectory

/-! ## Suffixes -/

section Suffixes
variable {name stem tail suffix : Text}

theorem takeWhile_reverse (hpoint : .char '.' ∉ tail) (stem : Text) :
    ((stem ++ .char '.' :: tail).reverse.takeWhile (· ≠ .char '.')).reverse = tail := by
  have hkept : ∀ c ∈ tail.reverse, decide (c ≠ .char '.') = true := by
    intro c hc
    refine decide_eq_true ?_
    rintro rfl
    exact hpoint (List.mem_reverse.1 hc)
  rw [List.reverse_append, List.reverse_cons, List.append_assoc,
    List.takeWhile_append_of_pos hkept]
  simp

theorem cutSuffix_of_not_mem (h : .char '.' ∉ name) : cutSuffix name = (name, []) := by
  have hall : name.reverse.takeWhile (· ≠ .char '.') = name.reverse := by
    refine List.takeWhile_eq_self_iff.2 fun c hc => decide_eq_true ?_
    rintro rfl
    exact h (List.mem_reverse.1 hc)
  have hzero : name.length - name.length - 1 = 0 := by omega
  simp only [cutSuffix, hall, List.reverse_reverse, hzero, List.take_zero]
  simp

/-- The suffix runs from the last point on, unless that is the first or the last character. -/
theorem cutSuffix_append_cons (hpoint : .char '.' ∉ tail) (stem : Text) :
    cutSuffix (stem ++ .char '.' :: tail) =
      if tail = [] ∨ stem = [] then (stem ++ .char '.' :: tail, [])
      else (stem, .char '.' :: tail) := by
  have hstem : (stem ++ .char '.' :: tail).take
      ((stem ++ .char '.' :: tail).length - tail.length - 1) = stem := by
    have hlength : (stem ++ .char '.' :: tail).length - tail.length - 1 = stem.length := by
      simp only [List.length_append, List.length_cons]
      omega
    rw [hlength, List.take_left]
  simp only [cutSuffix, takeWhile_reverse hpoint, hstem, Bool.or_eq_true, List.isEmpty_iff]

/-- A name without a point, or one that is cut at its last point. -/
theorem exists_last_point (name : Text) :
    .char '.' ∉ name ∨ ∃ stem tail, .char '.' ∉ tail ∧ name = stem ++ .char '.' :: tail := by
  by_cases hmem : .char '.' ∈ name
  · obtain ⟨front, rest, hname, hfront⟩ := List.eq_append_cons_of_mem (List.mem_reverse.2 hmem)
    refine .inr ⟨rest.reverse, front.reverse, fun h => hfront (List.mem_reverse.1 h), ?_⟩
    have hname := congrArg List.reverse hname
    simpa using hname
  · exact .inl hmem

/-- A file name is what stands in front of its suffix, and the suffix. -/
theorem append_cutSuffix (name : Text) : (cutSuffix name).1 ++ (cutSuffix name).2 = name := by
  obtain hnone | ⟨stem, tail, hpoint, rfl⟩ := exists_last_point name
  · rw [cutSuffix_of_not_mem hnone, List.append_nil]
  · rw [cutSuffix_append_cons hpoint]
    split
    · exact List.append_nil _
    · rfl

theorem stem_ne_nil (h : (cutSuffix name).2 ≠ []) : (cutSuffix name).1 ≠ [] := by
  obtain hnone | ⟨stem, tail, hpoint, rfl⟩ := exists_last_point name
  · rw [cutSuffix_of_not_mem hnone] at h
    exact absurd rfl h
  · rw [cutSuffix_append_cons hpoint] at h ⊢
    split at h
    · exact absurd rfl h
    · next hboth =>
      rw [if_neg hboth]
      exact fun hstem => hboth (.inr hstem)

/-- The suffixes of table files, each of which has a point at its start only. -/
theorem exists_tail_of_mem (h : suffix ∈ suffixes) :
    ∃ tail, suffix = .char '.' :: tail ∧ tail ≠ [] ∧ .char '.' ∉ tail := by
  have hall : ∀ suffix ∈ suffixes, suffix.head? = some (.char '.') ∧ suffix.tail ≠ [] ∧
      .char '.' ∉ suffix.tail := by decide
  obtain ⟨hhead, hne, hpoint⟩ := hall suffix h
  exact ⟨suffix.tail, (List.cons_head?_tail hhead).symm, hne, hpoint⟩

theorem cutSuffix_append (hstem : stem ≠ []) (h : suffix ∈ suffixes) :
    cutSuffix (stem ++ suffix) = (stem, suffix) := by
  obtain ⟨tail, rfl, htail, hpoint⟩ := exists_tail_of_mem h
  rw [cutSuffix_append_cons hpoint, if_neg (not_or.2 ⟨htail, hstem⟩)]

end Suffixes

/-! ## Table files and their entries -/

/-- The entry comes from the table file at a place below the directory, whose entries these are. -/
structure Produces (items : List (Text × Item)) (names : List Text) (entry : Text) : Prop where
  file : names ∈ Item.leavesOfEntries items
  table : isTableName (names.getLastD []) = true
  entry_eq : entryOf names = entry

/-- The directory is a folder of a plain tree, at a place, and the files below it can be asked for,
both from the directory and from the root. -/
structure Stands (disk : Disk) (directory : PathName) (place : List Text)
    (items : List (Text × Item)) : Prop where
  plain : disk.root.IsPlain
  found : disk.find directory = .ok (place, .folder items)
  askable : ∀ names ∈ Item.leavesOfEntries items, (directory.append names).fault? = none ∧
    (PathName.ofPlace (place ++ names)).fault? = none

variable {disk : Disk} {directory : PathName} {place names init : List Text}
  {items : List (Text × Item)} {entry last suffix : Text}

namespace Stands

theorem at?_eq (h : Stands disk directory place items) :
    disk.root.at? place = some (.folder items) :=
  (Disk.of_find_eq_ok h.plain h.found).2.1

/-- The files below the directory stand at their places. -/
theorem mem_leaves_iff (h : Stands disk directory place items) :
    names ∈ Item.leavesOfEntries items ↔
      ∃ content, disk.root.at? (place ++ names) = some (.file content) := by
  have hfolder : (Item.folder items).IsPlain := (h.plain.of_at? h.at?_eq).2
  have hat : disk.root.at? (place ++ names) = (Item.folder items).at? names := by
    rw [Item.at?_append, h.at?_eq]
    rfl
  rw [hat]
  exact hfolder.mem_leaves_iff

/-- All names on the way to a file are names of files, and the last of them is its own. -/
theorem exists_concat (h : Stands disk directory place items)
    (hmem : names ∈ Item.leavesOfEntries items) :
    (∀ name ∈ place ++ names, IsFileName name) ∧ ∃ init last, names = init ++ [last] := by
  obtain ⟨content, hat⟩ := h.mem_leaves_iff.1 hmem
  refine ⟨(h.plain.of_at? hat).1, ?_⟩
  obtain rfl | ⟨init, last, rfl⟩ := List.eq_nil_or_concat names
  · rw [List.append_nil, h.at?_eq] at hat
    cases hat
  · exact ⟨init, last, List.concat_eq_append⟩

end Stands

/-- The entries that a directory lists are those of the table files below it. -/
theorem Stands.index_eq_ok (h : Stands disk directory place items) :
    ∃ entries, index disk directory [] = .ok entries ∧
      ∀ entry, entry ∈ entries ↔ ∃ names, Produces items names entry := by
  have hthere : disk.isFolder directory = .ok true := by
    simp only [Disk.isFolder, Disk.check, h.found, Item.isFolder]
  have hfiles : ∀ names ∈ Item.leavesOfEntries items,
      (disk.isFile (directory.append names)).mapError DirectoryFault.disk = .ok true := by
    intro names hmem
    obtain ⟨content, hat⟩ := h.mem_leaves_iff.1 hmem
    rw [Disk.isFile, Disk.check,
      Disk.find_append_of_at? h.plain h.found (h.askable names hmem).1 hat]
    rfl
  let tables := (Item.leavesOfEntries items).filter fun names => isTableName (names.getLastD [])
  refine ⟨((tables.map entryOf).mergeSort fun a b => decide (a ≤ b)).eraseDups, ?_, fun entry => ?_⟩
  · unfold index
    simp only [hthere, h.found, Item.entries, filterM_eq_ok hfiles]
    rfl
  · simp only [List.mem_eraseDups, List.mem_mergeSort, List.mem_map, List.mem_filter, tables]
    constructor
    · rintro ⟨names, ⟨hmem, htable⟩, rfl⟩
      exact ⟨names, hmem, htable, rfl⟩
    · rintro ⟨names, hmem, htable, rfl⟩
      exact ⟨names, ⟨hmem, htable⟩, rfl⟩

/-! ## What an entry tells -/

theorem entryOf_concat (init : List Text) (last : Text) :
    entryOf (init ++ [last]) = Path.spelled (init ++ [(cutSuffix last).1]) := by
  have hne : init ++ [(cutSuffix last).1] ≠ [] := by simp
  rw [PathName.spelled_eq_joinWith hne, entryOf]
  simp

theorem suffix_ne_nil {name : Text} (h : isTableName name = true) : (cutSuffix name).2 ≠ [] := by
  intro hnil
  rw [isTableName, hnil] at h
  cases h

/-- The folders on the way down to a table file and its name without suffix, which the entry is
written from. -/
structure Parts (place : List Text) (entry : Text) (init : List Text) (last : Text) : Prop where
  above : ∀ name ∈ place ++ init, IsFileName name
  last_name : IsFileName last
  stem : Path.IsSolid (cutSuffix last).1
  stem_writable : PathName.writingFault? (cutSuffix last).1 = none
  entry_eq : entry = Path.spelled (init ++ [(cutSuffix last).1])

theorem Produces.exists_parts (h : Stands disk directory place items)
    (hentry : Produces items names entry) :
    ∃ init last, names = init ++ [last] ∧ Parts place entry init last := by
  obtain ⟨hnames, init, last, rfl⟩ := h.exists_concat hentry.file
  have hlast : IsFileName last := hnames last (by simp)
  have htable : isTableName last = true := by simpa using hentry.table
  have hstem : ∀ c ∈ (cutSuffix last).1, c ∈ last := by
    intro c hc
    rw [← append_cutSuffix last]
    exact List.mem_append_left _ hc
  refine ⟨init, last, rfl, fun name hname => hnames name ?_, hlast, ⟨?_, ?_⟩, ?_, ?_⟩
  · rw [← List.append_assoc]
    exact List.mem_append_left _ hname
  · exact stem_ne_nil (suffix_ne_nil htable)
  · exact fun hslash => hlast.noSlash (hstem _ hslash)
  · exact PathName.writingFault?_eq_none_iff.2 fun c hc =>
      PathName.writingFault?_eq_none_iff.1 hlast.writable c (hstem c hc)
  · exact hentry.entry_eq.symm.trans (entryOf_concat init last)

namespace Parts

theorem solid (h : Parts place entry init last) :
    ∀ segment ∈ init ++ [(cutSuffix last).1], Path.IsSolid segment :=
  List.forall_mem_append.2
    ⟨fun name hname => (h.above name (List.mem_append_right _ hname)).toIsSolid,
      List.forall_mem_singleton.2 h.stem⟩

theorem segments_eq (h : Parts place entry init last) :
    Path.segments entry = init ++ [(cutSuffix last).1] := by
  rw [h.entry_eq, Path.segments_spelled h.solid]

/-- An entry is an absolute path exactly if its last part is a name. -/
theorem isAbsolute_iff (h : Parts place entry init last) :
    Path.IsAbsolute entry ↔ Path.IsName (cutSuffix last).1 := by
  constructor
  · intro habsolute
    refine Path.name_of_mem_segments habsolute _ ?_
    rw [h.segments_eq]
    exact List.mem_append_right _ (List.mem_singleton_self _)
  · intro hname
    have hnames : ∀ name ∈ init ++ [(cutSuffix last).1], Path.IsName name :=
      List.forall_mem_append.2
        ⟨fun name hmem => (h.above name (List.mem_append_right _ hmem)).toIsName,
          List.forall_mem_singleton.2 hname⟩
    refine ⟨init ++ [(cutSuffix last).1], hnames, ?_⟩
    rw [h.entry_eq, Path.absolute, if_neg (by simp)]

/-- An entry is registered under itself exactly if it is an absolute path that does not end in a
blank. -/
theorem resolve_eq_iff (h : Parts place entry init last) :
    Path.resolve entry "/" "/" = entry ↔ Path.IsAbsolute entry ∧ Text.trim entry = entry := by
  have hroot : Path.IsAbsolute "/" := ⟨[], nofun, rfl⟩
  have hne : entry ≠ "/" := by
    rintro rfl
    have hnil := h.segments_eq.symm.trans (Path.segments_slash [])
    exact List.append_ne_nil_of_right_ne_nil _ (List.cons_ne_nil _ _) hnil
  have hfixed : Path.IsAbsolute entry →
      (Path.resolve entry "/" "/" = entry ↔ Text.trim entry = entry) := by
    intro habsolute
    have hlies : Path.LiesIn "/" entry := by
      obtain ⟨t, rfl⟩ := habsolute.exists_cons
      exact .inr ⟨t, rfl⟩
    rw [Path.resolve_absolute_iff hroot habsolute "/"]
    simp [hlies, hne]
  constructor
  · intro heq
    have habsolute : Path.IsAbsolute entry := heq ▸ Path.resolve_isAbsolute hroot entry "/"
    exact ⟨habsolute, (hfixed habsolute).1 heq⟩
  · rintro ⟨habsolute, htrim⟩
    exact (hfixed habsolute).2 htrim

end Parts

end RandomTables.TableDirectory
