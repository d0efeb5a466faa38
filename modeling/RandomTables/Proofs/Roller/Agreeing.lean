import Mathlib.Data.List.Basic
import RandomTables.Proofs.Definition.Variables
import RandomTables.Roller.Resolve

/-!
# Variables that are never read

What is rolled in a context depends on the depth and on the variables that are read on the way.
While contexts are extended from level to level and from sibling to sibling, two of them that hold
the same under every name that is read go on doing so, since what is added is the same for both. So
rolling in one of them is the same computation as rolling in the other, from templates and totals up
to whole references. A variable that nothing reads may therefore be bound in any way, even if
instructions store values under its name (`resolve_of_unread_variable`).
-/
namespace RandomTables

/-! ## Contexts that agree -/

theorem Bindings.get?_setAll_congr {α : Type} {b c : Bindings α} {name : Text}
    (h : b.get? name = c.get? name) (entries : List (Text × α)) :
    (b.setAll entries).get? name = (c.setAll entries).get? name := by
  induction entries generalizing b c with
  | nil => exact h
  | cons e rest ih => exact ih (by rw [get?_set, get?_set, h])

namespace Context

/-- Two contexts of the same depth that hold the same under each of these names. -/
structure AgreesOn (c d : Context) (names : List Text) : Prop where
  depth : c.depth = d.depth
  get?_eq : ∀ name ∈ names, c.vars.get? name = d.vars.get? name

namespace AgreesOn
variable {c d : Context} {names more : List Text}

theorem mono (h : c.AgreesOn d names) (hsub : more ⊆ names) : c.AgreesOn d more :=
  ⟨h.depth, fun name hname => h.get?_eq name (hsub hname)⟩

/-- Contexts that agree do so with further bindings on top. -/
theorem extended (h : c.AgreesOn d names) (bindings : Bindings Int) :
    (c.extended bindings).AgreesOn (d.extended bindings) names :=
  ⟨h.depth, fun name hname => Bindings.get?_setAll_congr (h.get?_eq name hname) bindings.entries⟩

/-- Contexts that agree do so one level deeper. -/
theorem child (h : c.AgreesOn d names) (bindings : Bindings Int) :
    (c.child bindings).AgreesOn (d.child bindings) names :=
  ⟨congrArg (· + 1) h.depth, (h.extended bindings).get?_eq⟩

end AgreesOn

/-- A further binding makes no difference to the other names. -/
theorem extended_set_agreesOn (c : Context) {names : List Text} {key : Text} (h : key ∉ names)
    (value : Int) : (c.extended (Bindings.empty.set key value)).AgreesOn c names := by
  refine ⟨rfl, fun name hname => ?_⟩
  have hne : key ≠ name := fun heq => h (heq ▸ hname)
  exact (Bindings.get?_set c.vars key name value).trans (if_neg hne)

end Context

open Context (AgreesOn)

/-! ## Instructions and templates -/

theorem Quantity.evaluate_of_agreesOn {c d : Context} (q : Quantity)
    (h : c.AgreesOn d q.reads) : q.evaluate c = q.evaluate d := by
  cases q with
  | fixed value => rfl
  | bound key =>
    simp only [evaluate, Context.value, h.get?_eq key (List.mem_singleton_self key)]

namespace Instructions
variable {c d : Context} {i : Instructions}

theorem count_of_agreesOn (h : c.AgreesOn d i.reads) : i.count c = i.count d := by
  unfold count
  cases hrepeats : i.repeats with
  | none => rfl
  | some repeats =>
    simp only [repeats.evaluate_of_agreesOn (h.mono (repeats_reads_subset hrepeats))]

theorem ignored_of_agreesOn (h : c.AgreesOn d i.reads) : i.ignored c = i.ignored d :=
  List.map_congr_left fun q hq => q.evaluate_of_agreesOn (h.mono (ignore_reads_subset hq))

end Instructions

namespace Template
variable {s : Surroundings} {d : Context}

def Surroundings.within (s : Surroundings) (d : Context) : Surroundings := { s with context := d }

theorem fill_of_agreesOn {p : Placeholder} (h : s.context.AgreesOn d [p.key])
    (values : Bindings (List Int)) : s.fill values p = (s.within d).fill values p := by
  have hkey := h.get?_eq p.key (List.mem_singleton_self _)
  unfold Surroundings.fill Surroundings.textUnder
  rw [hkey]
  rfl

mutual

theorem resolveOne_of_agreesOn (source : Source) (chances : Chances) (pass : Pass) :
    (c : Component) → s.context.AgreesOn d c.reads →
      resolveOne source s chances pass c = resolveOne source (s.within d) chances pass c
  | .plain _, _ | .computed _ _, _ | .reference _ _, _ => by simp only [resolveOne]
  | .input placeholder, h => by simp only [resolveOne, fill_of_agreesOn h]
  | .percent chance label inner, h => by
    simp only [resolveOne, resolveAll_of_agreesOn source .start pass inner h]

theorem resolveAll_of_agreesOn (source : Source) (chances : Chances) (pass : Pass) :
    (template : List Component) → s.context.AgreesOn d (Component.allReads template) →
      resolveAll source s chances pass template =
        resolveAll source (s.within d) chances pass template
  | [], _ => by simp only [resolveAll]
  | component :: rest, h => by
    have hfirst := h.mono (List.subset_append_left component.reads _)
    have hrest := h.mono (List.subset_append_right _ (Component.allReads rest))
    simp only [resolveAll, resolveOne_of_agreesOn source chances pass component hfirst]
    refine bind_congr fun ⟨piece, chances, pass⟩ => ?_
    simp only [resolveAll_of_agreesOn source chances pass rest hrest]

end

theorem storedOf_of_agreesOn {c : Context} {store : Bindings Text}
    (h : c.AgreesOn d (store.entries.map (·.2))) (values : Bindings (List Int)) :
    storedOf store values c = storedOf store values d := by
  unfold storedOf
  congr 1
  refine List.filterMap_congr fun entry hentry => ?_
  simp only [h.get?_eq entry.2 (List.mem_map_of_mem hentry)]

theorem resolve_of_agreesOn (source : Source) {store : Bindings Text} {template : List Component}
    (hstore : s.context.AgreesOn d (store.entries.map (·.2)))
    (htemplate : s.context.AgreesOn d (Component.allReads template)) :
    resolve source s store template = resolve source (s.within d) store template := by
  unfold resolve
  rw [resolveAll_of_agreesOn source .start .start template htemplate]
  refine bind_congr fun ⟨text, pass⟩ => ?_
  simp only [storedOf_of_agreesOn hstore, Surroundings.within]

end Template

/-! ## Rows -/

/-- References that read none but these variables are rolled alike in contexts that agree on
them. -/
def ChildRoller.ReadsOnly (children : ChildRoller) (names : List Text) : Prop :=
  ∀ (directory : Text) (c d : Context) (stored : Bindings Int) (refs : List Reference),
    Reference.allReads refs ⊆ names → c.AgreesOn d names →
      children directory c stored refs = children directory d stored refs

/-- A template and the references in it, however they are rolled and whatever comes of them. -/
theorem Template.resolve_bind_of_agreesOn {α : Type} (source : Source) {children : ChildRoller}
    {names : List Text} {c d : Context} {store : Bindings Text} {template : List Component}
    (hchildren : children.ReadsOnly names) (hstore : store.entries.map (·.2) ⊆ names)
    (htemplate : Component.allReads template ⊆ names) (h : c.AgreesOn d names)
    (inputs : Bindings (List Text)) (directory : Text) (stored : Resolution → Bindings Int)
    (k : Resolution → List Node → Roll α) :
    (resolve source ⟨c, inputs⟩ store template >>= fun found =>
      children directory c (stored found) found.refs >>= k found) =
    (resolve source ⟨d, inputs⟩ store template >>= fun found =>
      children directory d (stored found) found.refs >>= k found) := by
  have hresolve : resolve source ⟨c, inputs⟩ store template =
      resolve source ⟨d, inputs⟩ store template :=
    resolve_of_agreesOn source (h.mono hstore) (h.mono htemplate)
  rw [hresolve]
  refine Roll.bind_congr_of_ok fun s found t hfound => ?_
  -- The references were found in the template, so they read nothing that it does not.
  have hrefs := List.Subset.trans (refs_reads_subset hfound) htemplate
  rw [hchildren directory c d (stored found) found.refs hrefs h]

namespace Batch
variable {b : Batch} {d : Context} {names : List Text} {children : ChildRoller}

def within (b : Batch) (d : Context) : Batch := { b with context := d }

theorem rollTotal_of_agreesOn (source : Source)
    (h : b.context.AgreesOn d b.instructions.reads) :
    b.rollTotal source = (b.within d).rollTotal source := by
  unfold rollTotal within
  cases htotal : b.instructions.total with
  | some total =>
    have htotal' := h.mono (Instructions.total_reads_subset htotal)
    simp only [total.evaluate_of_agreesOn htotal']
  | none =>
    cases hmodifier : b.instructions.modifier with
    | none => rfl
    | some m =>
      have hmodifier' := h.mono (Instructions.modifier_reads_subset hmodifier)
      simp only [Option.map_some, m.evaluate_of_agreesOn hmodifier']

theorem rollFresh_of_agreesOn (source : Source)
    (h : b.context.AgreesOn d b.instructions.reads) (ignored : List Int) (tries : Nat) :
    b.rollFresh source ignored tries = (b.within d).rollFresh source ignored tries := by
  induction tries with
  | zero => rfl
  | succ tries ih => simp only [rollFresh, rollTotal_of_agreesOn source h, ih]

variable (source : Source) (hchildren : children.ReadsOnly names)
  (htable : b.table.reads ⊆ names) (hi : b.instructions.reads ⊆ names)
  (h : b.context.AgreesOn d names)
include hchildren htable hi h

theorem rollRow_of_agreesOn (total : Int) :
    b.rollRow source children total = (b.within d).rollRow source children total := by
  unfold rollRow within
  cases hrow : b.table.findRow? total with
  | none => rfl
  | some row =>
    have htemplate := List.Subset.trans (Table.row_reads_subset hrow) htable
    have hstore := List.Subset.trans (Instructions.store_reads_subset b.instructions) hi
    exact Template.resolve_bind_of_agreesOn source hchildren hstore htemplate h b.inputs
      b.table.path Template.Resolution.stored _

theorem rollNext_of_agreesOn (ignored : List Int) :
    b.rollNext source children ignored = (b.within d).rollNext source children ignored := by
  unfold rollNext
  rw [rollFresh_of_agreesOn source (h.mono hi)]
  refine bind_congr fun fresh => ?_
  cases fresh with
  | none => rfl
  | some total =>
    simp only [rollRow_of_agreesOn source hchildren htable hi h, lookupOf, within, h.depth]

theorem rollRows_of_agreesOn (ignored : List Int) (count : Nat) :
    b.rollRows source children ignored count =
      (b.within d).rollRows source children ignored count := by
  induction count generalizing ignored with
  | zero => rfl
  | succ count ih =>
    simp only [rollRows, rollNext_of_agreesOn source hchildren htable hi h, ih]
    rfl

end Batch

/-! ## References -/

namespace Roller
variable {children : ChildRoller} {names : List Text} {c d : Context} {ref : Reference}

theorem rollExtra_of_agreesOn (r : Roller) (hchildren : children.ReadsOnly names) {table : Table}
    (htable : table.reads ⊆ names) (h : c.AgreesOn d names) (inputs : Bindings (List Text)) :
    r.rollExtra children c table inputs = r.rollExtra children d table inputs := by
  unfold rollExtra
  cases hextra : table.extra with
  | none => rfl
  | some template =>
    have htemplate := List.Subset.trans (Table.extra_reads_subset hextra) htable
    exact Template.resolve_bind_of_agreesOn r.source hchildren (List.nil_subset _) htemplate h
      inputs table.path (fun _ => .empty) _

theorem rollTable_of_agreesOn (r : Roller) (hchildren : children.ReadsOnly names) {table : Table}
    (htable : table.reads ⊆ names) (href : ref.reads ⊆ names) (h : c.AgreesOn d names) :
    r.rollTable children c ref table = r.rollTable children d ref table := by
  have hinputs := List.Subset.trans (Table.inputs_reads_subset table) htable
  have hi := h.mono href
  unfold rollTable
  rw [hchildren table.path c d .empty _ hinputs h, Instructions.count_of_agreesOn hi,
    Instructions.ignored_of_agreesOn hi]
  refine bind_congr fun inputs => ?_
  have hrows := Batch.rollRows_of_agreesOn
    (b := ⟨table, c, ref.instructions, inputTexts table inputs⟩) r.source hchildren htable href h
  simp only [hrows, Batch.within, r.rollExtra_of_agreesOn hchildren htable h]

theorem rollRepeats_of_agreesOn (hchildren : children.ReadsOnly names) {bundle : Bundle}
    (hbundle : Reference.allReads bundle.refs ⊆ names) (h : c.AgreesOn d names) (count : Nat) :
    rollRepeats children c bundle count = rollRepeats children d bundle count := by
  induction count with
  | zero => rfl
  | succ count ih =>
    simp only [rollRepeats, hchildren bundle.path c d .empty bundle.refs hbundle h, ih]

theorem rollDefinition_of_agreesOn (r : Roller) (hchildren : children.ReadsOnly names)
    {definition : Definition} (hdefinition : definition.reads ⊆ names)
    (href : ref.reads ⊆ names) (h : c.AgreesOn d names) :
    r.rollDefinition children c ref definition = r.rollDefinition children d ref definition := by
  cases definition with
  | table table => simp only [rollDefinition, r.rollTable_of_agreesOn hchildren hdefinition href h]
  | bundle bundle =>
    have hrepeats : ∀ count, rollRepeats children c bundle count =
        rollRepeats children d bundle count :=
      rollRepeats_of_agreesOn hchildren hdefinition h
    simp only [rollDefinition, rollBundle, hrepeats, Instructions.count_of_agreesOn (h.mono href)]

theorem rollReference_of_agreesOn (r : Roller) (hregistry : r.registry.reads ⊆ names)
    (hchildren : children.ReadsOnly names) (directory : Text) (href : ref.reads ⊆ names)
    (h : c.AgreesOn d names) :
    r.rollReference children directory c ref = r.rollReference children directory d ref := by
  unfold rollReference
  cases hget : r.registry.get? (r.pathOf directory ref) with
  | none => rfl
  | some definition =>
    have hdefinition := List.Subset.trans (Registry.definition_reads_subset hget) hregistry
    exact r.rollDefinition_of_agreesOn hchildren hdefinition href h

/-- Siblings agree one after another, because those before them export the same in both contexts. -/
theorem rollSiblings_of_agreesOn {roll : Context → Reference → Roll Node}
    (hroll : ∀ (c d : Context) (ref : Reference), ref.reads ⊆ names → c.AgreesOn d names →
      roll c ref = roll d ref)
    {refs : List Reference} (hrefs : Reference.allReads refs ⊆ names)
    (h : c.AgreesOn d names) : rollSiblings roll c refs = rollSiblings roll d refs := by
  induction refs generalizing c d with
  | nil => rfl
  | cons ref rest ih =>
    have hfirst := List.Subset.trans (List.subset_append_left ref.reads _) hrefs
    have hothers :=
      List.Subset.trans (List.subset_append_right _ (Reference.allReads rest)) hrefs
    simp only [rollSiblings, hroll c d ref hfirst h]
    refine bind_congr fun node => ?_
    rw [ih hothers (h.extended node.exports)]

/-- Over a registry that reads these variables only, references are rolled so at any depth. -/
theorem childrenAt_readsOnly (r : Roller) (hregistry : r.registry.reads ⊆ names)
    (levels : Nat) : (r.childrenAt levels).ReadsOnly names := by
  induction levels with
  | zero =>
    intro directory c d stored refs hrefs h
    rfl
  | succ levels ih =>
    intro directory c d stored refs hrefs h
    refine rollSiblings_of_agreesOn (fun c d ref href h => ?_) hrefs (h.child stored)
    exact r.rollReference_of_agreesOn hregistry ih directory href h

/-- In contexts that agree on whatever the registry and the reference read, the reference is rolled
by the same computation. -/
theorem resolve_of_agreesOn (r : Roller) (directory : Text)
    (h : c.AgreesOn d (r.registry.reads ++ ref.reads)) :
    r.resolve directory c ref = r.resolve directory d ref := by
  have hregistry := List.subset_append_left r.registry.reads ref.reads
  have href := List.subset_append_right r.registry.reads ref.reads
  unfold resolve children
  rw [h.depth]
  exact r.rollReference_of_agreesOn hregistry (r.childrenAt_readsOnly hregistry _) directory href h

/-- A variable that nothing in the registry reads, nor the reference, makes no difference. However
it is bound on top of the context, from every state the reference comes to the same outcome or fails
in the same way, and the states after it are the same, with their seed and their log. -/
theorem resolve_of_unread_variable (r : Roller) (directory : Text) (context : Context)
    (ref : Reference) (key : Text) (value : Int) (hregistry : key ∉ r.registry.reads)
    (href : key ∉ ref.reads) (s : RollState) :
    (r.resolve directory (context.extended (Bindings.empty.set key value)) ref).runFrom s =
      (r.resolve directory context ref).runFrom s := by
  have hread : key ∉ r.registry.reads ++ ref.reads :=
    fun hmem => (List.mem_append.1 hmem).elim hregistry href
  rw [r.resolve_of_agreesOn directory (context.extended_set_agreesOn hread value)]

end Roller

/-- A ring with a stone, whose weight the ring decides. -/
def Registry.ring : Registry :=
  .ofDefinitions "/" [
    .table ⟨"/ring", "Ring", .dice 1 1 false,
      [⟨[.computed "carats" (.dice 1 6 false), .reference (.toPath "/stone") none], .single 1,
        "[[@carats:1d6]][[/stone]]"⟩], .empty, none⟩,
    .table ⟨"/stone", "Stone", .dice 1 1 false,
      [⟨[.input ⟨"carats", none, none, none, 0⟩, .plain " carats"], .single 1,
        "[@carats] carats"⟩], .empty, none⟩]

/-- A ring that stores the weight of its stone, and its lustre as well. -/
def Reference.ring : Reference :=
  ⟨"/ring", { Instructions.plain with store := ⟨[("carats", "carats"), ("lustre", "carats")]⟩ }⟩

namespace Roller

/-- The lustre of the ring is stored and never read, so no lustre that it had before matters. -/
theorem ring_unread_lustre :
    Text.ofString "lustre" ∉ Registry.ring.reads ∧
      Text.ofString "lustre" ∉ Reference.ring.reads ∧
      ((Roller.mk .ring SplitMix.source 3).resolve "/"
          (Context.root.extended (Bindings.empty.set "lustre" 9)) .ring).runFrom
        (.start default 7 (.empty default)) =
      ((Roller.mk .ring SplitMix.source 3).resolve "/" .root .ring).runFrom
        (.start default 7 (.empty default)) := by
  have hregistry : Text.ofString "lustre" ∉ Registry.ring.reads := by decide +kernel
  have href : Text.ofString "lustre" ∉ Reference.ring.reads := by decide +kernel
  exact ⟨hregistry, href, resolve_of_unread_variable (.mk .ring SplitMix.source 3) "/" .root .ring
    "lustre" 9 hregistry href (.start default 7 (.empty default))⟩

end Roller
end RandomTables
