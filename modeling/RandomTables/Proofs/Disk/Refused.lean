import RandomTables.Proofs.Disk.Followed

/-!
# Path names that are refused

A plain tree refuses some path names whatever is asked of them. One that holds half a character
cannot be settled. One that is too long cannot be looked at: it is too long as a whole, or a folder
on the way is asked for a name that is. Any other place has an item or has none.
-/
namespace RandomTables.Disk

variable {disk : Disk} {root item : Item} {links : Nat} {place names : List Text} {name : Text}
  {items : List (Text × Item)}

/-! ## Names that are too long -/

/-- Going down some names from a place, a folder is asked for one that is too long. -/
def AsksTooLong (root : Item) (place names : List Text) : Prop :=
  ∃ init name rest items, names = init ++ name :: rest ∧
    root.at? (place ++ init) = some (.folder items) ∧
    PathName.maxNameBytes < PathName.byteCount name

theorem not_asksTooLong_nil : ¬ AsksTooLong root place [] := by
  rintro ⟨init, name, rest, items, hnames, _⟩
  exact List.append_ne_nil_of_right_ne_nil _ (List.cons_ne_nil _ _) hnames.symm

theorem asksTooLong_cons_iff : AsksTooLong root place (name :: names) ↔
    (∃ items, root.at? place = some (.folder items)) ∧
        PathName.maxNameBytes < PathName.byteCount name ∨
      AsksTooLong root (place ++ [name]) names := by
  constructor
  · rintro ⟨init, long, rest, items, hnames, hat, hlong⟩
    cases init with
    | nil =>
      obtain ⟨rfl, rfl⟩ := List.cons.inj hnames
      rw [List.append_nil] at hat
      exact .inl ⟨⟨items, hat⟩, hlong⟩
    | cons first init =>
      obtain ⟨rfl, rfl⟩ := List.cons.inj hnames
      rw [List.append_cons] at hat
      exact .inr ⟨init, long, rest, items, rfl, hat, hlong⟩
  · rintro (⟨⟨items, hat⟩, hlong⟩ | ⟨init, long, rest, items, rfl, hat, hlong⟩)
    · exact ⟨[], name, names, items, rfl, by rwa [List.append_nil], hlong⟩
    · rw [← List.append_cons] at hat
      exact ⟨name :: init, long, rest, items, rfl, hat, hlong⟩

/-- Nothing is asked below a place where nothing is. -/
theorem not_asksTooLong_of_at?_eq_none (hat : root.at? place = none) :
    ¬ AsksTooLong root place names := by
  rintro ⟨init, long, rest, items, _, hfolder, _⟩
  rw [Item.at?_append, hat] at hfolder
  cases hfolder

theorem at?_concat_eq_none (hfolder : ¬ ∃ items, root.at? place = some (.folder items))
    (name : Text) : root.at? (place ++ [name]) = none := by
  rw [Item.at?_append]
  cases hat : root.at? place with
  | none => rfl
  | some found =>
    cases found with
    | file | link => rfl
    | folder items => exact absurd ⟨items, hat⟩ hfolder

/-- Only a folder can be asked for a name that is too long. -/
theorem follow_cons_ne_longName (hfolder : ¬ ∃ items, root.at? place = some (.folder items)) :
    follow root false links place (name :: names) false ≠ .error .longName := by
  rw [follow.eq_def]
  cases hat : root.at? place with
  | none => exact nofun
  | some found =>
    cases found with
    | file | link => exact nofun
    | folder items => exact absurd ⟨items, hat⟩ hfolder

theorem follow_cons_of_long (hat : root.at? place = some (.folder items)) (hname : Path.IsName name)
    (hlong : PathName.maxNameBytes < PathName.byteCount name) :
    follow root false links place (name :: names) false = .error .longName := by
  have hhere : name ≠ "." := hname.ne_here
  have hup : name ≠ ".." := hname.ne_up
  rw [follow.eq_def]
  simp only [hat, if_neg hhere, if_neg hup, if_pos hlong, Bool.false_and, Bool.false_eq_true,
    if_false]

/-- Following names ends at one that is too long exactly if a folder on the way is asked for it. -/
theorem follow_eq_longName_iff (h : root.IsPlain)
    (hnames : ∀ name ∈ names, Path.IsName name ∧ PathName.writingFault? name = none) :
    follow root false links place names false = .error .longName ↔
      AsksTooLong root place names := by
  induction names generalizing place with
  | nil =>
    refine iff_of_false ?_ not_asksTooLong_nil
    rw [follow.eq_def]
    cases root.at? place <;> exact nofun
  | cons name rest ih =>
    obtain ⟨hname, hwritable⟩ := hnames name List.mem_cons_self
    have hrest := fun other hother => hnames other (List.mem_cons_of_mem name hother)
    rw [asksTooLong_cons_iff]
    by_cases hfolder : ∃ items, root.at? place = some (.folder items)
    · by_cases hlong : PathName.maxNameBytes < PathName.byteCount name
      · obtain ⟨items, hat⟩ := hfolder
        exact iff_of_true (follow_cons_of_long hat hname hlong) (.inl ⟨⟨items, hat⟩, hlong⟩)
      · rw [or_iff_right fun hboth => hlong hboth.2]
        obtain hstep | ⟨hnone, hstop⟩ := follow_cons h links place name
        · rw [hstep, Path.step_name hname, ih hrest]
        · have hfile : IsFileName name := ⟨hname, hwritable, Nat.not_lt.1 hlong⟩
          refine iff_of_false (fun hfollow => ?_) (not_asksTooLong_of_at?_eq_none (hnone hfile))
          have hstop := hstop rest
          rw [hfollow] at hstop
          cases hstop with
          | longName hlong' => exact hlong hlong'
    · rw [or_iff_right fun hboth => hfolder hboth.1]
      exact iff_of_false (follow_cons_ne_longName hfolder)
        (not_asksTooLong_of_at?_eq_none (at?_concat_eq_none hfolder name))

/-- The name of a place is too long, or a folder on the way there is asked for one that is. -/
def IsTooLong (disk : Disk) (place : List Text) : Prop :=
  PathName.maxPathBytes < PathName.byteCount (PathName.ofPlace place).text ∨
    AsksTooLong disk.root [] place

theorem not_isTooLong (hnames : ∀ name ∈ names, PathName.byteCount name ≤ PathName.maxNameBytes)
    (hbytes : PathName.byteCount (PathName.ofPlace names).text ≤ PathName.maxPathBytes) :
    ¬ disk.IsTooLong names := by
  rintro (hlong | ⟨init, name, rest, items, rfl, _, hlong⟩)
  · exact Nat.not_le.2 hlong hbytes
  · exact Nat.not_le.2 hlong (hnames name (by simp))

section Places
variable (h : disk.root.IsPlain)
  (hnames : ∀ name ∈ names, Path.IsName name ∧ PathName.writingFault? name = none)
include h hnames

/-- A place that is too long cannot be looked at. -/
theorem check_of_tooLong (hlong : disk.IsTooLong names) (property : Item → Bool) :
    disk.check property (.ofPlace names) = .error ⟨.longName, (PathName.ofPlace names).text⟩ := by
  have hwritable : PathName.writingFault? (PathName.ofPlace names).text = none :=
    PathName.writingFault?_text_iff.2 fun name hname => (hnames name hname).2
  have hfind : disk.find (.ofPlace names) = .error .longName := by
    obtain hfault | hfault := PathName.fault?_cases hwritable
    · obtain hlong | hasks := hlong
      · exact absurd (PathName.fault?_eq_none_iff.1 hfault).2 (Nat.not_le.2 hlong)
      · rw [find_eq_of_fault?_eq_none hfault]
        exact congrArg found ((follow_eq_longName_iff h hnames).2 hasks)
    · simp only [find, arrive, hfault]
  simp only [check, hfind]

/-- At any other place there is an item or none. -/
theorem check_of_not_tooLong (hlong : ¬ disk.IsTooLong names) (property : Item → Bool) :
    disk.check property (.ofPlace names) = .ok ((disk.root.at? names).any property) := by
  have hwritable : PathName.writingFault? (PathName.ofPlace names).text = none :=
    PathName.writingFault?_text_iff.2 fun name hname => (hnames name hname).2
  obtain ⟨hshort, hasks⟩ := not_or.1 hlong
  have hfault : (PathName.ofPlace names).fault? = none :=
    PathName.fault?_eq_none_iff.2 ⟨hwritable, Nat.not_lt.1 hshort⟩
  refine check_of_find_eq h (fun name hname => (hnames name hname).1)
    (find_eq_of_fault?_eq_none hfault) (fun hfollow => ?_) property
  exact hasks ((follow_eq_longName_iff h hnames).1 hfollow)

end Places
end RandomTables.Disk
