import RandomTables.Disk.Files
import RandomTables.Disk.Settle
import RandomTables.Proofs.Disk.PathName
import RandomTables.Proofs.Disk.Plain

/-!
# Path names in plain trees

Where there are no links, a path name is followed name by name: a single point stays, two points go
up, and any other name goes down if something stands under it. A path name is settled in the same
way, whether anything is there or not.
-/
namespace RandomTables.Disk
open Item (at?_append)

variable {root item : Item} {links : Nat} {place names more q : List Text} {name : Text}
  {items : List (Text × Item)}

/-! ## Following names -/

theorem at?_concat (hat : root.at? place = some (.folder items)) (name : Text) :
    root.at? (place ++ [name]) = Item.lookup name items := by
  rw [at?_append, hat]
  change (Item.lookup name items).bind (fun item => item.at? []) = _
  cases Item.lookup name items with
  | none => rfl
  | some found => cases found <;> rfl

theorem follow_nil (hat : root.at? place = some item) :
    follow root false links place [] false = .ok (.item place item) := by
  rw [follow.eq_def]
  simp [hat]

/-- A name of a plain tree led nowhere: it was free, or something stood in its way. Its length did
only if it is too long. -/
inductive Stops (name : Text) : Except DiskFaultKind Arrival → Prop where
  | free (place : List Text) : Stops name (.ok (.free place))
  | missing : Stops name (.error .missing)
  | notFolder : Stops name (.error .notFolder)
  | longName (hlong : PathName.byteCount name > PathName.maxNameBytes) :
    Stops name (.error .longName)

/-- A name leads one step on from a place, or it leads nowhere, and then nothing is there. -/
def StepsOrStops (root : Item) (links : Nat) (place : List Text) (name : Text) : Prop :=
  (∀ names, follow root false links place (name :: names) false =
    follow root false links (Path.step place name) names false) ∨
  (IsFileName name → root.at? (place ++ [name]) = none) ∧
    ∀ names, Stops name (follow root false links place (name :: names) false)

theorem follow_cons_of_folder (h : root.IsPlain) (hat : root.at? place = some (.folder items))
    (links : Nat) (name : Text) : StepsOrStops root links place name := by
  have hunfold := fun names => follow.eq_def root false links place (name :: names) false
  simp only [hat, Bool.false_and, Bool.false_eq_true, if_false] at hunfold
  by_cases hhere : name = "."
  · refine .inl fun names => (hunfold names).trans ?_
    rw [if_pos hhere, hhere]
    rfl
  by_cases hup : name = ".."
  · refine .inl fun names => (hunfold names).trans ?_
    rw [if_neg hhere, if_pos hup, hup]
    rfl
  by_cases hlong : PathName.byteCount name > PathName.maxNameBytes
  · refine .inr ⟨fun hname => absurd hlong (Nat.not_lt.2 hname.short), fun names => ?_⟩
    rw [hunfold names, if_neg hhere, if_neg hup, if_pos hlong]
    exact .longName hlong
  cases hlookup : Item.lookup name items with
  | none =>
    refine .inr ⟨fun _ => (at?_concat hat name).trans hlookup, fun names => ?_⟩
    rw [hunfold names, if_neg hhere, if_neg hup, if_neg hlong, hlookup]
    cases names with
    | nil => exact .free _
    | cons => exact .missing
  | some sub =>
    obtain ⟨hname, hsub, _⟩ := Item.ArePlain.of_mem (h.of_at? hat).2 (Item.mem_of_lookup hlookup)
    refine .inl fun names => (hunfold names).trans ?_
    rw [if_neg hhere, if_neg hup, if_neg hlong, hlookup, Path.step_name hname.toIsName]
    cases sub with
    | link => exact hsub.elim
    | file | folder => rfl

/-- In a plain tree every name leads one step on or stops. -/
theorem follow_cons (h : root.IsPlain) (links : Nat) (place : List Text) (name : Text) :
    StepsOrStops root links place name := by
  have hunfold := fun names => follow.eq_def root false links place (name :: names) false
  cases hat : root.at? place with
  | none =>
    simp only [hat] at hunfold
    refine .inr ⟨fun _ => ?_, fun names => hunfold names ▸ .missing⟩
    rw [at?_append, hat]
    rfl
  | some found =>
    cases found with
    | link => exact (h.of_at? hat).2.elim
    | file =>
      simp only [hat] at hunfold
      refine .inr ⟨fun _ => ?_, fun names => hunfold names ▸ .notFolder⟩
      rw [at?_append, hat]
      rfl
    | folder items => exact follow_cons_of_folder h hat links name

theorem exists_at?_of_follow {arrival : Arrival}
    (hfollow : follow root false links place names false = .ok arrival) :
    ∃ found, root.at? place = some found := by
  cases hat : root.at? place with
  | some found => exact ⟨found, rfl⟩
  | none =>
    rw [follow.eq_def] at hfollow
    simp [hat] at hfollow

/-- Names that lead to something lead there step by step, and further names lead on from it. -/
theorem of_follow_eq_item (h : root.IsPlain)
    (hfollow : follow root false links place names false = .ok (.item q item)) :
    root.at? q = some item ∧ q = names.foldl Path.step place ∧
      ∀ more, follow root false links place (names ++ more) false =
        follow root false links q more false := by
  induction names generalizing place with
  | nil =>
    obtain ⟨found, hat⟩ := exists_at?_of_follow hfollow
    rw [follow_nil hat] at hfollow
    obtain ⟨rfl, rfl⟩ := Arrival.item.inj (Except.ok.inj hfollow)
    exact ⟨hat, rfl, fun _ => rfl⟩
  | cons name rest ih =>
    obtain hstep | ⟨_, hstop⟩ := follow_cons h links place name
    · rw [hstep] at hfollow
      obtain ⟨hfound, hq, happend⟩ := ih hfollow
      exact ⟨hfound, hq, fun more => (hstep _).trans (happend more)⟩
    · have hstop := hstop rest
      rw [hfollow] at hstop
      cases hstop

/-- What stands in the way of names in a plain tree is that something is missing, no folder, or has
too long a name. -/
theorem of_follow_eq_error (h : root.IsPlain) {kind : DiskFaultKind}
    (hfollow : follow root false links place names false = .error kind) :
    kind = .missing ∨ kind = .notFolder ∨
      kind = .longName ∧ ∃ name ∈ names, PathName.byteCount name > PathName.maxNameBytes := by
  induction names generalizing place with
  | nil =>
    cases hat : root.at? place with
    | none =>
      rw [follow.eq_def] at hfollow
      simp only [hat] at hfollow
      exact .inl (Except.error.inj hfollow).symm
    | some found =>
      rw [follow_nil hat] at hfollow
      cases hfollow
  | cons name rest ih =>
    obtain hstep | ⟨_, hstop⟩ := follow_cons h links place name
    · rw [hstep] at hfollow
      obtain hkind | hkind | ⟨hkind, other, hother, hlong⟩ := ih hfollow
      · exact .inl hkind
      · exact .inr (.inl hkind)
      · exact .inr (.inr ⟨hkind, other, List.mem_cons_of_mem _ hother, hlong⟩)
    · have hstop := hstop rest
      rw [hfollow] at hstop
      cases hstop with
      | missing => exact .inl rfl
      | notFolder => exact .inr (.inl rfl)
      | longName hlong => exact .inr (.inr ⟨rfl, name, List.mem_cons_self, hlong⟩)

/-- What stands at a place is found by the names of the place. -/
theorem follow_of_at? (h : root.IsPlain) (links : Nat)
    (hat : root.at? (place ++ names) = some item) :
    follow root false links place names false = .ok (.item (place ++ names) item) := by
  induction names generalizing place with
  | nil =>
    rw [List.append_nil] at hat ⊢
    exact follow_nil hat
  | cons name rest ih =>
    have hname : IsFileName name := (h.of_at? hat).1 name (by simp)
    rw [List.append_cons] at hat ⊢
    obtain hstep | ⟨hnone, _⟩ := follow_cons h links place name
    · rw [hstep, Path.step_name hname.toIsName, ih hat]
    · rw [at?_append, hnone hname] at hat
      cases hat

/-! ## Asking for an item -/

section Asking
variable {disk : Disk} {p : PathName}

/-- What has been found where following names has led to: nothing if the last name is free. -/
def found : Except DiskFaultKind Arrival → Except DiskFaultKind (List Text × Item)
  | .error kind => .error kind
  | .ok (.free _) => .error .missing
  | .ok (.item place item) => .ok (place, item)

theorem find_eq_of_fault?_eq_none (hfault : p.fault? = none) :
    disk.find p = found (follow disk.root false maxLinks (disk.start p) p.names false) := by
  have harrive : disk.arrive false p =
      follow disk.root false maxLinks (disk.start p) p.names false := by
    simp only [arrive, hfault]
  rw [← harrive]
  rfl

theorem found_eq_ok {result : Except DiskFaultKind Arrival}
    (h : found result = .ok (place, item)) : result = .ok (.item place item) := by
  cases result with
  | error kind => cases h
  | ok arrival =>
    cases arrival with
    | free => cases h
    | item q other =>
      obtain ⟨rfl, rfl⟩ := Prod.mk.inj (Except.ok.inj h)
      rfl

theorem found_eq_error {result : Except DiskFaultKind Arrival} {kind : DiskFaultKind}
    (h : found result = .error kind) : result = .error kind ∨ kind = .missing := by
  cases result with
  | error other => exact .inl (congrArg Except.error (Except.error.inj h))
  | ok arrival =>
    cases arrival with
    | free => exact .inr (Except.error.inj h).symm
    | item => cases h

/-- A single slash asks for the root. -/
theorem find_root (disk : Disk) : disk.find (.ofPlace []) = .ok ([], disk.root) := by
  have hroot : disk.root.at? [] = some disk.root := by cases disk.root <;> rfl
  have hfollow : follow disk.root false maxLinks (disk.start (.ofPlace [])) [] false =
      .ok (.item [] disk.root) := follow_nil hroot
  have hfault : (PathName.ofPlace []).fault? = none := by decide
  exact (find_eq_of_fault?_eq_none hfault).trans (congrArg found hfollow)

/-- What is found in a plain tree stands at the place that its path name walks to. -/
theorem of_find_eq_ok (h : disk.root.IsPlain) (hfind : disk.find p = .ok (place, item)) :
    p.fault? = none ∧ disk.root.at? place = some item ∧
      place = p.names.foldl Path.step (disk.start p) ∧
      follow disk.root false maxLinks (disk.start p) p.names false = .ok (.item place item) := by
  cases hfault : p.fault? with
  | some kind => simp [find, arrive, hfault] at hfind
  | none =>
    have hfollow := found_eq_ok ((find_eq_of_fault?_eq_none hfault).symm.trans hfind)
    obtain ⟨hat, hplace, _⟩ := of_follow_eq_item h hfollow
    exact ⟨rfl, hat, hplace, hfollow⟩

/-- What keeps a plain tree from finding something: its path name cannot be followed, or something
is missing, no folder, or has too long a name. -/
theorem of_find_eq_error (h : disk.root.IsPlain) {kind : DiskFaultKind}
    (hfind : disk.find p = .error kind) :
    p.fault? = some kind ∨ kind = .missing ∨ kind = .notFolder ∨ kind = .longName := by
  cases hfault : p.fault? with
  | some other =>
    simp only [find, arrive, hfault] at hfind
    exact .inl (congrArg some (Except.error.inj hfind))
  | none =>
    have hfound := (find_eq_of_fault?_eq_none hfault).symm.trans hfind
    obtain hfollow | hkind := found_eq_error hfound
    · obtain hkind | hkind | ⟨hkind, _⟩ := of_follow_eq_error h hfollow
      · exact .inr (.inl hkind)
      · exact .inr (.inr (.inl hkind))
      · exact .inr (.inr (.inr hkind))
    · exact .inr (.inl hkind)

/-- Below a folder that was found, names are followed from there on. -/
theorem find_append (h : disk.root.IsPlain) (hfind : disk.find p = .ok (place, item))
    (hfault : (p.append names).fault? = none) :
    disk.find (p.append names) =
      found (follow disk.root false maxLinks place names false) := by
  obtain ⟨_, _, _, hfollow⟩ := of_find_eq_ok h hfind
  rw [find_eq_of_fault?_eq_none hfault, ← (of_follow_eq_item h hfollow).2.2 names]
  rfl

/-- Below a folder that was found, an item is found by the names that lead to it. -/
theorem find_append_of_at? (h : disk.root.IsPlain) (hfind : disk.find p = .ok (place, item))
    (hfault : (p.append names).fault? = none) {sub : Item}
    (hat : disk.root.at? (place ++ names) = some sub) :
    disk.find (p.append names) = .ok (place ++ names, sub) := by
  rw [find_append h hfind hfault, follow_of_at? h maxLinks hat]
  rfl

/-- Names of which none is refused lead to an item with a property exactly if one stands at the
place that they name. -/
theorem check_of_find_eq (h : disk.root.IsPlain) (hnames : ∀ name ∈ names, Path.IsName name)
    (hfind : disk.find p = found (follow disk.root false maxLinks place names false))
    (hshort : follow disk.root false maxLinks place names false ≠ .error .longName)
    (property : Item → Bool) :
    disk.check property p = .ok ((disk.root.at? (place ++ names)).any property) := by
  rw [check, hfind]
  cases hat : disk.root.at? (place ++ names) with
  | some item =>
    rw [follow_of_at? h maxLinks hat]
    rfl
  | none =>
    cases hfollow : follow disk.root false maxLinks place names false with
    | error kind =>
      obtain rfl | rfl | ⟨rfl, _⟩ := of_follow_eq_error h hfollow
      · rfl
      · rfl
      · exact absurd hfollow hshort
    | ok arrival =>
      cases arrival with
      | free => rfl
      | item q item =>
        obtain ⟨hitem, hq, _⟩ := of_follow_eq_item h hfollow
        rw [Path.foldl_step_of_names hnames] at hq
        rw [hq, hat] at hitem
        cases hitem

/-- Below a folder that was found, names of files lead to an item with a property exactly if one
stands at the place that they name. -/
theorem check_append (h : disk.root.IsPlain) (hfind : disk.find p = .ok (place, item))
    (hfault : (p.append names).fault? = none) (hnames : ∀ name ∈ names, IsFileName name)
    (property : Item → Bool) :
    disk.check property (p.append names) =
      .ok ((disk.root.at? (place ++ names)).any property) := by
  refine check_of_find_eq h (fun name hname => (hnames name hname).toIsName)
    (find_append h hfind hfault) (fun hfollow => ?_) property
  obtain hkind | hkind | ⟨_, name, hname, hlong⟩ := of_follow_eq_error h hfollow
  · cases hkind
  · cases hkind
  · exact absurd hlong (Nat.not_lt.2 (hnames name hname).short)

theorem exists_find_of_check {property : Item → Bool} (hcheck : disk.check property p = .ok true) :
    ∃ place item, disk.find p = .ok (place, item) ∧ property item := by
  unfold check at hcheck
  split at hcheck
  · next place item hfind => exact ⟨place, item, hfind, Except.ok.inj hcheck⟩
  · cases hcheck
  · cases hcheck

theorem kind_of_check_eq_error {property : Item → Bool} {fault : DiskFault}
    (hcheck : disk.check property p = .error fault) : fault.kind = .longName := by
  unfold check at hcheck
  split at hcheck
  · cases hcheck
  · obtain rfl := Except.error.inj hcheck
    rfl
  · cases hcheck

end Asking

/-! ## Settling path names -/

section Settling
variable {disk : Disk} {p : PathName}

/-- Without links, a name that can be written is settled as it is walked. -/
theorem settleFrom_cons (h : root.IsPlain) (depth : Nat) (opened : List (List Text))
    (place : List Text) (name : Text) (rest : List Text) :
    settleFrom root depth opened place (name :: rest) =
      match PathName.writingFault? name with
      | some kind => .error (.unwritable kind)
      | none => settleFrom root depth opened (Path.step place name) rest := by
  have hlink : ∀ target, root.at? (place ++ [name]) ≠ some (.link target) := by
    intro target hat
    exact (h.of_at? hat).2
  rw [settleFrom.eq_def, Path.step]
  by_cases hstay : name = [] ∨ name = Path.here
  · have hskip : (name.isEmpty || decide (name = ".")) = true := by
      obtain rfl | rfl := hstay <;> rfl
    have hwritable : PathName.writingFault? name = none := by
      obtain rfl | rfl := hstay <;> rfl
    simp only [hskip, if_true, if_pos hstay, hwritable]
  · have hgo : (name.isEmpty || decide (name = ".")) = false := by
      obtain ⟨hempty, hhere⟩ := not_or.1 hstay
      have hpoint : name ≠ "." := hhere
      simp [hempty, hpoint]
    simp only [hgo, Bool.false_eq_true, if_false, if_neg hstay]
    by_cases hup : name = ".."
    · have hstep : name = Path.up := hup
      have hwritable : PathName.writingFault? name = none := by
        rw [hup]
        rfl
      simp only [if_pos hup, if_pos hstep, hwritable]
    · have hstep : name ≠ Path.up := hup
      cases PathName.writingFault? name with
      | some kind => exact if_neg hup
      | none =>
        rw [if_neg hstep]
        refine (if_neg hup).trans ?_
        cases hat : root.at? (place ++ [name]) with
        | none => rfl
        | some found =>
          cases found with
          | link target => exact absurd hat (hlink target)
          | file | folder => rfl

theorem settleFrom_of_writable (h : root.IsPlain) (depth : Nat) (opened : List (List Text))
    (hnames : ∀ name ∈ names, PathName.writingFault? name = none) :
    settleFrom root depth opened place names = .ok (names.foldl Path.step place) := by
  induction names generalizing place with
  | nil =>
    rw [settleFrom.eq_def]
    rfl
  | cons name rest ih =>
    obtain ⟨hname, hrest⟩ := List.forall_mem_cons.1 hnames
    rw [settleFrom_cons h, hname, List.foldl_cons]
    exact ih hrest

/-- Settling stops at a name that cannot be written. -/
theorem settleFrom_of_unwritable (h : root.IsPlain) (depth : Nat) (opened : List (List Text))
    (hnames : ¬ ∀ name ∈ names, PathName.writingFault? name = none) :
    ∃ kind, settleFrom root depth opened place names = .error (.unwritable kind) := by
  induction names generalizing place with
  | nil => exact absurd (List.forall_mem_nil _) hnames
  | cons name rest ih =>
    rw [settleFrom_cons h]
    cases hname : PathName.writingFault? name with
    | some kind => exact ⟨kind, rfl⟩
    | none => exact ih fun hall => hnames (List.forall_mem_cons.2 ⟨hname, hall⟩)

theorem mem_foldl_step (hname : name ∈ names.foldl Path.step place) :
    name ∈ place ∨ name ∈ names := by
  induction names generalizing place with
  | nil => exact .inl hname
  | cons first rest ih =>
    obtain hstep | hrest := ih hname
    · unfold Path.step at hstep
      split at hstep
      · exact .inl hstep
      · split at hstep
        · exact .inl (List.dropLast_subset _ hstep)
        · obtain hplace | hfirst := List.mem_append.1 hstep
          · exact .inl hplace
          · exact .inr (List.mem_singleton.1 hfirst ▸ List.mem_cons_self)
    · exact .inr (List.mem_cons_of_mem _ hrest)

/-- In a plain tree every path name that can be written is settled: it means where it walks to. -/
theorem settle_of_writable (h : disk.root.IsPlain)
    (hstart : ∀ name ∈ disk.start p, PathName.writingFault? name = none)
    (hnames : ∀ name ∈ p.names, PathName.writingFault? name = none) :
    disk.settle p = .ok (.ofPlace (p.names.foldl Path.step (disk.start p))) := by
  have hwritable : PathName.writingFault?
      (PathName.ofPlace (p.names.foldl Path.step (disk.start p))).text = none :=
    PathName.writingFault?_text_iff.2 fun name hname =>
      (mem_foldl_step hname).elim (hstart name) (hnames name)
  simp only [settle, settleFrom_of_writable h _ _ hnames]
  cases hfind : disk.find (.ofPlace (p.names.foldl Path.step (disk.start p))) with
  | ok => rfl
  | error kind =>
    obtain hkind | rfl | rfl | rfl := of_find_eq_error h hfind
    · obtain hnone | hlong := PathName.fault?_cases hwritable
      · cases hnone.symm.trans hkind
      · obtain rfl := Option.some.inj (hlong.symm.trans hkind)
        rfl
    all_goals rfl

theorem settle_of_unwritable (h : disk.root.IsPlain)
    (hnames : ¬ ∀ name ∈ p.names, PathName.writingFault? name = none) :
    ∃ fault, disk.settle p = .error fault := by
  obtain ⟨kind, hstop⟩ : ∃ kind, settleFrom disk.root (disk.root.countLinks + 1) [] (disk.start p)
      p.names = .error (.unwritable kind) := settleFrom_of_unwritable h _ _ hnames
  refine ⟨⟨kind, p.text⟩, ?_⟩
  simp only [settle, hstop]

/-- What is found in a plain tree is settled where it is found. -/
theorem settle_of_find (h : disk.root.IsPlain) (hfind : disk.find p = .ok (place, item)) :
    disk.settle p = .ok (.ofPlace place) := by
  obtain ⟨hfault, _, hplace, hfollow⟩ := of_find_eq_ok h hfind
  obtain ⟨found, hat⟩ := exists_at?_of_follow hfollow
  have hstart := fun name hname => ((h.of_at? hat).1 name hname).writable
  have hnames := PathName.writingFault?_text_iff.1 (PathName.fault?_eq_none_iff.1 hfault).1
  rw [hplace]
  exact settle_of_writable h hstart hnames

end Settling

end RandomTables.Disk
