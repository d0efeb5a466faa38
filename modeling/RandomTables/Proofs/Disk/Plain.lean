import RandomTables.Disk.Basic
import RandomTables.Disk.Fault
import RandomTables.Proofs.Path.Walk

/-!
# Plain trees

A tree is plain if there are no links in it and everything stands under the name of a file, no two
things of a folder under the same one. Whatever is found in a plain tree stands at one place, and
the places of its files are those where a file is found.
-/
namespace RandomTables

/-- The text can be the name of a file: it is a name that can be written, and not too long. -/
structure IsFileName (name : Text) : Prop extends Path.IsName name where
  writable : PathName.writingFault? name = none
  short : PathName.byteCount name ≤ PathName.maxNameBytes

instance (name : Text) : Decidable (IsFileName name) :=
  decidable_of_iff (Path.IsName name ∧ PathName.writingFault? name = none ∧
      PathName.byteCount name ≤ PathName.maxNameBytes)
    ⟨fun h => ⟨h.1, h.2.1, h.2.2⟩, fun h => ⟨h.toIsName, h.writable, h.short⟩⟩

namespace Item

mutual

/-- There are no links in the item, and everything stands under a name of its own. -/
def IsPlain : Item → Prop
  | file _ => True
  | link _ => False
  | folder items => ArePlain items

/-- The same of the entries of a folder. -/
def ArePlain : List (Text × Item) → Prop
  | [] => True
  | (name, item) :: rest =>
    (IsFileName name ∧ name ∉ rest.map Prod.fst) ∧ item.IsPlain ∧ ArePlain rest

end

mutual

instance decidableIsPlain : (item : Item) → Decidable item.IsPlain
  | file _ => .isTrue trivial
  | link _ => .isFalse id
  | folder items => decidableArePlain items

instance decidableArePlain : (items : List (Text × Item)) → Decidable (ArePlain items)
  | [] => .isTrue trivial
  | (name, item) :: rest =>
    have := decidableIsPlain item
    have := decidableArePlain rest
    inferInstanceAs (Decidable
      ((IsFileName name ∧ name ∉ rest.map Prod.fst) ∧ item.IsPlain ∧ ArePlain rest))

end

variable {item sub : Item} {items : List (Text × Item)} {name : Text} {names place : List Text}

/-! ## What is found at a place -/

/-- Names lead on from where the names before them have led. -/
theorem at?_append (item : Item) (place names : List Text) :
    item.at? (place ++ names) = (item.at? place).bind fun sub => sub.at? names := by
  induction place generalizing item with
  | nil => cases item <;> rfl
  | cons name rest ih =>
    cases item with
    | file | link => rfl
    | folder items =>
      rw [List.cons_append, at?, at?]
      cases lookup name items with
      | none => rfl
      | some found => exact ih found

theorem mem_of_lookup (h : lookup name items = some item) : (name, item) ∈ items := by
  induction items with
  | nil => cases h
  | cons entry rest ih =>
    obtain ⟨key, other⟩ := entry
    rw [lookup] at h
    split at h
    · next hkey =>
      obtain rfl := Option.some.inj h
      rw [hkey]
      exact List.mem_cons_self
    · exact List.mem_cons_of_mem _ (ih h)

theorem ArePlain.of_mem (h : ArePlain items) (hmem : (name, item) ∈ items) :
    IsFileName name ∧ item.IsPlain ∧ lookup name items = some item := by
  induction items with
  | nil => cases hmem
  | cons entry rest ih =>
    obtain ⟨key, other⟩ := entry
    obtain ⟨⟨hkey, hother⟩, hitem, hrest⟩ := h
    obtain heq | hmem := List.mem_cons.1 hmem
    · obtain ⟨rfl, rfl⟩ := Prod.mk.inj heq
      exact ⟨hkey, hitem, if_pos rfl⟩
    · have hne : key ≠ name := by
        rintro rfl
        exact hother (List.mem_map_of_mem hmem)
      obtain ⟨hname, hplain, hlookup⟩ := ih hrest hmem
      exact ⟨hname, hplain, (if_neg hne).trans hlookup⟩

/-- What is found in a plain tree is plain, and the names that lead to it are names of files. -/
theorem IsPlain.of_at? (h : item.IsPlain) (hat : item.at? names = some sub) :
    (∀ name ∈ names, IsFileName name) ∧ sub.IsPlain := by
  induction names generalizing item with
  | nil =>
    have hsub : item = sub := by cases item <;> exact Option.some.inj hat
    exact ⟨nofun, hsub ▸ h⟩
  | cons name rest ih =>
    cases item with
    | file | link => cases hat
    | folder items =>
      rw [at?] at hat
      obtain ⟨found, hlookup, hat⟩ := Option.bind_eq_some_iff.1 hat
      obtain ⟨hname, hplain, _⟩ := ArePlain.of_mem h (mem_of_lookup hlookup)
      obtain ⟨hrest, hsub⟩ := ih hplain hat
      exact ⟨List.forall_mem_cons.2 ⟨hname, hrest⟩, hsub⟩

/-! ## The places of files -/

theorem mem_leavesOfEntries_iff :
    place ∈ leavesOfEntries items ↔
      ∃ e ∈ items, ∃ names ∈ e.2.leaves, place = e.1 :: names := by
  induction items with
  | nil => simp [leavesOfEntries]
  | cons entry rest ih =>
    obtain ⟨name, item⟩ := entry
    rw [leavesOfEntries, List.mem_append, ih, List.mem_map]
    simp [eq_comm]

/-- The leaves of a plain tree are its files. -/
theorem IsPlain.mem_leaves_iff (h : item.IsPlain) :
    place ∈ item.leaves ↔ ∃ content, item.at? place = some (.file content) := by
  induction place generalizing item with
  | nil =>
    cases item with
    | file content => simp [leaves, at?]
    | link => exact h.elim
    | folder items => simp [leaves, at?, mem_leavesOfEntries_iff]
  | cons name rest ih =>
    cases item with
    | file content => simp [leaves, at?]
    | link => exact h.elim
    | folder items =>
      rw [leaves, mem_leavesOfEntries_iff, at?]
      constructor
      · rintro ⟨⟨key, found⟩, hmem, names, hnames, hplace⟩
        obtain ⟨rfl, rfl⟩ := List.cons.inj hplace
        obtain ⟨_, hplain, hlookup⟩ := ArePlain.of_mem h hmem
        rw [hlookup]
        exact (ih hplain).1 hnames
      · rintro ⟨content, hat⟩
        obtain ⟨found, hlookup, hat⟩ := Option.bind_eq_some_iff.1 hat
        have hmem := mem_of_lookup hlookup
        obtain ⟨_, hplain, _⟩ := ArePlain.of_mem h hmem
        exact ⟨_, hmem, rest, (ih hplain).2 ⟨content, hat⟩, rfl⟩

end Item
end RandomTables
