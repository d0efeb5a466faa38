import RandomTables.Proofs.Template.Followed
import RandomTables.Registry

/-!
# The variables that definitions read

A variable is read by its name. The names stand in instructions, as the number of rolls, the total,
the modifier, a total to ignore, or the source of a store; and in templates, as the keys of
placeholders. The target of a store and the name of a computed value are no variables that are read.

Whatever a part reads the whole reads, from the quantity in an instruction up to the registry.
-/
namespace RandomTables

/-- The variable that stands for a quantity, if it is not fixed. -/
def Quantity.reads : Quantity → List Text
  | fixed _ => []
  | bound key => [key]

def Instructions.reads (i : Instructions) : List Text :=
  (i.repeats.toList ++ i.total.toList ++ i.modifier.toList ++ i.ignore).flatMap
      Quantity.reads ++
    i.store.entries.map (·.2)

def Reference.reads (r : Reference) : List Text := r.instructions.reads

def Reference.allReads (refs : List Reference) : List Text := refs.flatMap reads

namespace Component

mutual

def reads : Component → List Text
  | .plain _ => []
  | .input placeholder => [placeholder.key]
  | .computed _ _ => []
  | .percent _ _ inner => allReads inner
  | .reference ref _ => ref.reads

def allReads : List Component → List Text
  | [] => []
  | component :: rest => component.reads ++ allReads rest

end

end Component

/-- The variables that a table reads: in its rows, its inputs and its extra text. -/
def Table.reads (t : Table) : List Text :=
  t.rows.flatMap (fun row => Component.allReads row.template) ++
    Reference.allReads (t.inputs.entries.map (·.2)) ++
    t.extra.toList.flatMap Component.allReads

def Definition.reads : Definition → List Text
  | table t => t.reads
  | bundle b => Reference.allReads b.refs

def Registry.reads (r : Registry) : List Text := r.definitions.flatMap Definition.reads

/-! ## Parts -/

namespace Instructions
variable {i : Instructions} {q : Quantity}

theorem quantity_reads_subset
    (h : q ∈ i.repeats.toList ++ i.total.toList ++ i.modifier.toList ++ i.ignore) :
    q.reads ⊆ i.reads :=
  fun _ hname => List.mem_append_left _ (List.mem_flatMap.2 ⟨q, h, hname⟩)

theorem repeats_reads_subset (h : i.repeats = some q) : q.reads ⊆ i.reads :=
  quantity_reads_subset (by simp [h])

theorem total_reads_subset (h : i.total = some q) : q.reads ⊆ i.reads :=
  quantity_reads_subset (by simp [h])

theorem modifier_reads_subset (h : i.modifier = some q) : q.reads ⊆ i.reads :=
  quantity_reads_subset (by simp [h])

theorem ignore_reads_subset (h : q ∈ i.ignore) : q.reads ⊆ i.reads :=
  quantity_reads_subset (List.mem_append_right _ h)

theorem store_reads_subset (i : Instructions) : i.store.entries.map (·.2) ⊆ i.reads :=
  List.subset_append_right _ _

end Instructions

namespace Reference

theorem reads_subset {ref : Reference} {refs : List Reference} (h : ref ∈ refs) :
    ref.reads ⊆ allReads refs :=
  fun _ hname => List.mem_flatMap.2 ⟨ref, h, hname⟩

theorem allReads_subset {refs more : List Reference} (h : refs ⊆ more) :
    allReads refs ⊆ allReads more := by
  intro name hname
  obtain ⟨ref, href, hname⟩ := List.mem_flatMap.1 hname
  exact reads_subset (h href) hname

end Reference

namespace Template

mutual

theorem referencesOne_reads_subset :
    (c : Component) → Reference.allReads (referencesOne c) ⊆ c.reads
  | .plain _ | .input _ | .computed _ _ => List.nil_subset _
  | .percent _ _ inner => references_reads_subset inner
  | .reference ref _ => by
    simp only [referencesOne, Component.reads, Reference.allReads, List.flatMap_singleton]
    exact List.Subset.refl _

/-- The references that are written in a template read what the template reads. -/
theorem references_reads_subset :
    (template : List Component) →
      Reference.allReads (references template) ⊆ Component.allReads template
  | [] => List.nil_subset _
  | component :: rest => by
    simp only [references, Component.allReads, Reference.allReads, List.flatMap_append]
    have hfirst := referencesOne_reads_subset component
    have hothers := references_reads_subset rest
    exact List.append_subset.2 ⟨fun _ h => List.mem_append_left _ (hfirst h),
      fun _ h => List.mem_append_right _ (hothers h)⟩

end

/-- So do those among them that are followed. -/
theorem refs_reads_subset {source : Source} {s : Surroundings} {store : Bindings Text}
    {template : List Component} {found : Resolution} {t t' : RollState}
    (h : (resolve source s store template).runFrom t = (.ok found, t')) :
    Reference.allReads found.refs ⊆ Component.allReads template := by
  rw [refs_of_resolve h]
  have hfollowed := Reference.allReads_subset (followed_sublist template found.text).subset
  exact List.Subset.trans hfollowed (references_reads_subset template)

end Template

namespace Table
variable {t : Table}

theorem row_reads_subset {total : Int} {row : Row} (h : t.findRow? total = some row) :
    Component.allReads row.template ⊆ t.reads := by
  intro name hname
  have hrow : row ∈ t.rows := List.mem_of_find?_eq_some h
  exact List.mem_append_left _ (List.mem_append_left _ (List.mem_flatMap.2 ⟨row, hrow, hname⟩))

theorem inputs_reads_subset (t : Table) :
    Reference.allReads (t.inputs.entries.map (·.2)) ⊆ t.reads :=
  fun _ hname => List.mem_append_left _ (List.mem_append_right _ hname)

theorem extra_reads_subset {template : List Component} (h : t.extra = some template) :
    Component.allReads template ⊆ t.reads := by
  intro name hname
  refine List.mem_append_right _ (List.mem_flatMap.2 ⟨template, ?_, hname⟩)
  simp [h]

end Table

theorem Registry.definition_reads_subset {r : Registry} {path : Text} {d : Definition}
    (h : r.get? path = some d) : d.reads ⊆ r.reads :=
  fun _ hname => List.mem_flatMap.2 ⟨d, List.mem_of_find?_eq_some h, hname⟩

end RandomTables
