import RandomTables.Proofs.Roller.Depth
import RandomTables.Proofs.Roller.Lookups

/-!
# What an outcome shows of its roller

While a reference is rolled, the registry is asked for one path after another, and the limit is
asked how deep to go. Each path that is asked for is the path of a node of the outcome, and where
the limit cuts references off, leaves stand for them. So whatever was asked can be read off the
outcome: a roller that gives the same answers for each node of it comes to the same outcome, with
the same dice and events (`Run.retraced`).

It follows that an outcome depends on no definition but those whose paths it has
(`resolve_of_registry_agrees`), and that raising the limit changes nothing exactly if no leaf has a
definition (`limit_unseen_iff`).
-/
namespace RandomTables

namespace Roller
variable {r : Roller} {registry : Registry} {maxDepth : Int}

/-- The same roller with another registry and another limit. -/
def lookingIn (r : Roller) (registry : Registry) (maxDepth : Int) : Roller :=
  ⟨registry, r.source, maxDepth⟩

/-- For this node another registry and another limit give the same answers: the definition under its
path is the same, and a leaf would stay one, because the limit is the same or there is no definition
under its path. -/
structure Answered (r : Roller) (registry : Registry) (maxDepth : Int) (node : Node) : Prop where
  get?_eq : registry.get? node.path = r.registry.get? node.path
  leaf : node.isLeaf → maxDepth = r.maxDepth ∨ registry.get? node.path = none

/-- Below the same root a reference points to the same path. -/
theorem pathOf_lookingIn (maxDepth : Int) (hroot : registry.root = r.registry.root)
    (directory : Text) (ref : Reference) :
    (r.lookingIn registry maxDepth).pathOf directory ref = r.pathOf directory ref := by
  change Path.resolve ref.path directory registry.root = _
  rw [hroot, pathOf]

theorem leafOf_lookingIn (maxDepth : Int) (hroot : registry.root = r.registry.root)
    (directory : Text) : (r.lookingIn registry maxDepth).leafOf directory = r.leafOf directory := by
  funext ref
  rw [leafOf, leafOf, pathOf_lookingIn maxDepth hroot]

/-- What a node was made of is found again. -/
theorem Answered.get?_lookingIn {node : Node} (h : r.Answered registry maxDepth node)
    (hroot : registry.root = r.registry.root) {directory : Text} {ref : Reference} {d : Definition}
    (hnode : node.path = d.path) (hget : r.registry.get? (r.pathOf directory ref) = some d) :
    (r.lookingIn registry maxDepth).registry.get?
      ((r.lookingIn registry maxDepth).pathOf directory ref) = some d := by
  have hpath : node.path = r.pathOf directory ref :=
    hnode.trans (Registry.path_of_get?_eq_some hget)
  rw [pathOf_lookingIn maxDepth hroot, ← hpath]
  exact h.get?_eq.trans (by rw [hpath, hget])

end Roller

namespace Run
variable {r : Roller} {registry : Registry} {maxDepth : Int} {s s' : RollState}

/-! ## Runs with the same answers -/

/-- References without definitions become leaves one after another, and nothing else happens. -/
theorem siblings_of_absent {directory : Text} {context : Context} {refs : List Reference}
    (h : ∀ ref ∈ refs, r.registry.get? (r.pathOf directory ref) = none) :
    Nonempty (Run r (.siblings directory context refs) s (refs.map (r.leafOf directory)) s) := by
  induction refs with
  | nil => exact ⟨.nil⟩
  | cons ref refs ih =>
    obtain ⟨others⟩ := ih fun ref' href' => h ref' (List.mem_cons_of_mem _ href')
    exact ⟨.cons (.leaf (h ref (List.mem_cons_self ..))) others⟩

/-- References that the limit cuts off stay leaves under a higher limit if they have no
definitions. -/
theorem children_of_cut (hroot : registry.root = r.registry.root) {directory : Text}
    {context : Context} {stored : Bindings Int} {refs : List Reference}
    (hdepth : r.maxDepth < context.depth)
    (h : ∀ ref ∈ refs, r.Answered registry maxDepth (r.leafOf directory ref)) :
    Nonempty (Run (r.lookingIn registry maxDepth) (.children directory context stored refs) s
      (refs.map (r.leafOf directory)) s) := by
  rw [← Roller.leafOf_lookingIn maxDepth hroot]
  by_cases hbeyond : maxDepth < context.depth
  · exact ⟨.beyond hbeyond⟩
  · -- The references are rolled now, so what matters is that there is nothing under their paths.
    have habsent : ∀ ref ∈ refs, registry.get?
        ((r.lookingIn registry maxDepth).pathOf directory ref) = none := by
      intro ref href
      rw [Roller.pathOf_lookingIn maxDepth hroot]
      rcases (h ref href).leaf rfl with hsame | hnone
      · omega
      · exact hnone
    obtain ⟨siblingsRun⟩ := siblings_of_absent (r := r.lookingIn registry maxDepth) habsent
    exact ⟨.within (Int.not_lt.1 hbeyond) siblingsRun⟩

/-- A run can be had again with another registry and a limit that is no lower, if they give the same
answers throughout all nodes that the job came to. -/
theorem retraced (hroot : registry.root = r.registry.root) (hlimit : r.maxDepth ≤ maxDepth)
    {j : Job} {a : j.Yield} (run : Run r j s a s')
    (h : ∀ node ∈ j.nodes a, node.Throughout (r.Answered registry maxDepth)) :
    Nonempty (Run (r.lookingIn registry maxDepth) j s a s') := by
  induction run with
  | @leaf directory context ref _ hget =>
    obtain ⟨hself, _⟩ := Node.throughout_iff.1 (h _ (List.mem_singleton_self _))
    rw [← Roller.leafOf_lookingIn maxDepth hroot]
    refine ⟨.leaf ?_⟩
    rw [Roller.pathOf_lookingIn maxDepth hroot]
    exact hself.get?_eq.trans hget
  | table hget _ _ _ inputs rows extra =>
    obtain ⟨hself, hbelow⟩ := Node.throughout_iff.1 (h _ (List.mem_singleton_self _))
    obtain ⟨inputsRun⟩ := inputs fun node hnode =>
      hbelow node (Node.mem_children_table_iff.2 (.inl hnode))
    obtain ⟨rowsRun⟩ := rows fun node hnode =>
      hbelow node (Node.mem_children_table_iff.2 (.inr (.inl (List.mem_flatMap.1 hnode))))
    obtain ⟨extraRun⟩ := extra fun node hnode =>
      hbelow node (Node.mem_children_table_iff.2 (.inr (.inr hnode)))
    exact ⟨.table (hself.get?_lookingIn hroot rfl hget) inputsRun rowsRun extraRun⟩
  | bundle hget _ repeats =>
    obtain ⟨hself, hbelow⟩ := Node.throughout_iff.1 (h _ (List.mem_singleton_self _))
    obtain ⟨repeatsRun⟩ := repeats fun node hnode =>
      hbelow node (Node.mem_children_bundle_iff.2 (List.mem_flatten.1 hnode))
    exact ⟨.bundle (hself.get?_lookingIn hroot rfl hget) repeatsRun⟩
  | beyond hdepth =>
    refine children_of_cut hroot hdepth fun ref href => ?_
    exact (Node.throughout_iff.1 (h _ (List.mem_map.2 ⟨ref, href, rfl⟩))).1
  | within hdepth _ siblings =>
    obtain ⟨siblingsRun⟩ := siblings h
    exact ⟨.within (Int.le_trans hdepth hlimit) siblingsRun⟩
  | nil => exact ⟨.nil⟩
  | cons _ _ first others =>
    obtain ⟨firstRun⟩ := first fun node hnode =>
      h node (List.mem_cons.2 (.inl (List.mem_singleton.1 hnode)))
    obtain ⟨othersRun⟩ := others fun node hnode => h node (List.mem_cons_of_mem _ hnode)
    exact ⟨.cons firstRun othersRun⟩
  | gaveUp hfresh => exact ⟨.gaveUp hfresh⟩
  | missing hfresh hfind => exact ⟨.missing hfresh hfind⟩
  | found hfresh hfind hresolve _ nested =>
    obtain ⟨nestedRun⟩ := nested h
    exact ⟨.found hfresh hfind hresolve nestedRun⟩
  | noRows => exact ⟨.noRows⟩
  | stopped _ first =>
    obtain ⟨firstRun⟩ := first h
    exact ⟨.stopped firstRun⟩
  | more _ _ first others =>
    obtain ⟨firstRun⟩ := first fun node hnode => h node (List.mem_append_left _ hnode)
    obtain ⟨othersRun⟩ := others fun node hnode => h node (List.mem_append_right _ hnode)
    exact ⟨.more firstRun othersRun⟩
  | noExtra hextra => exact ⟨.noExtra hextra⟩
  | extra hextra hresolve _ nodes =>
    obtain ⟨nodesRun⟩ := nodes h
    exact ⟨.extra hextra hresolve nodesRun⟩
  | noRepeats => exact ⟨.noRepeats⟩
  | again _ _ first others =>
    obtain ⟨firstRun⟩ := first fun node hnode => h node (List.mem_append_left _ hnode)
    obtain ⟨othersRun⟩ := others fun node hnode => h node (List.mem_append_right _ hnode)
    exact ⟨.again firstRun othersRun⟩

/-! ## Leaves -/

/-- A leaf has no definition, unless it stands in a definition beyond the limit. -/
theorem absent_or_cut_of_leaf {directory : Text} {context : Context} {ref : Reference} {node : Node}
    (run : Run r (.reference directory context ref) s node s') {level : Nat} {sub : Node}
    (hsub : node.Below level sub) (hleaf : sub.isLeaf) :
    r.registry.get? sub.path = none ∨ r.maxDepth + 1 < context.depth + level := by
  cases level with
  | zero =>
    cases hsub with
    | self =>
      cases run with
      | leaf hget => exact .inl hget
      | table => cases hleaf
      | bundle => cases hleaf
  | succ level =>
    obtain ⟨parent, hparent, hchild⟩ := hsub.exists_parent
    have hrolled : parent.isLeaf = false := by
      cases parent with
      | leaf => cases hchild
      | table => rfl
      | bundle => rfl
    obtain ⟨_, _, _, _, _, parentRun, _, hdepth⟩ :=
      run.rolledAt_of_below (List.mem_singleton_self node) hparent hrolled
    obtain ⟨refs, nodes, hfamily, hmem⟩ := parentRun.family_of_mem_children hchild
    obtain ⟨_, _, _, ⟨childrenRun⟩⟩ := parentRun.children_of_family hfamily
    obtain ⟨i, rfl⟩ := List.get_of_mem hmem
    have hall := childrenRun.answers_of_children
    have hanswers := hall.get (by rw [hall.length_eq]; exact i.isLt) i.isLt
    rcases hanswers.isLeaf_iff.1 hleaf with hcut | hnone
    · right
      change _ = context.depth + level at hdepth
      push_cast
      omega
    · left
      rw [hanswers.path_eq, hnone]

end Run

namespace Roller

/-- An outcome depends on the definitions only whose paths it has, those of its leaves, inputs and
extra text included: over every other registry of the same root that has the same definitions under
these paths, or none where there is none, the reference comes to the same outcome from the same
state, and the states after it are the same, with their seed and their log. -/
theorem resolve_of_registry_agrees (r : Roller) (registry : Registry)
    (hroot : registry.root = r.registry.root) (directory : Text) (context : Context)
    (ref : Reference) (s s' : RollState) (node : Node)
    (h : (r.resolve directory context ref).runFrom s = (.ok node, s'))
    (hagrees : node.Throughout fun sub => registry.get? sub.path = r.registry.get? sub.path) :
    ((r.lookingIn registry r.maxDepth).resolve directory context ref).runFrom s =
      (.ok node, s') := by
  obtain ⟨run⟩ := (succeeds_iff_run (j := .reference directory context ref)).1 h
  obtain ⟨again⟩ := run.retraced hroot (Int.le_refl r.maxDepth) fun root hnode => by
    obtain rfl := List.mem_singleton.1 hnode
    exact hagrees.mono fun sub hsub => ⟨hsub, fun _ => .inl rfl⟩
  exact succeeds_of_run again

end Roller

/-- A door with a key that is not there, and with a trap that never comes up. -/
def Registry.door : Registry :=
  .ofDefinitions "/" [
    .table ⟨"/door", "Door", .dice 1 1 false,
      [⟨[.plain "oak", .percent 0 "0%" [.reference (.toPath "/trap") none],
        .reference (.toPath "/key") none], .single 1, "oak[[0% [[/trap]]]][[/key]]"⟩],
      .empty, none⟩]

/-- A trap that is one thing only. -/
def Definition.trap (name : Text) : Definition :=
  .table ⟨"/trap", "Trap", .dice 1 1 false, [⟨[.plain name], .single 1, name⟩], .empty, none⟩

namespace Roller

/-- The trap behind the door is another one, and the door is rolled as before. -/
theorem door_registry_agrees :
    ∃ node s',
      ((Roller.mk (Registry.door.register (.trap "a pit")) SplitMix.source 3).resolve "/" .root
        (.toPath "/door")).runFrom (.start default 7 (.empty default)) = (.ok node, s') ∧
      (node.Throughout fun sub => (Registry.door.register (.trap "a dart")).get? sub.path =
        (Registry.door.register (.trap "a pit")).get? sub.path) ∧
      ((Roller.mk (Registry.door.register (.trap "a dart")) SplitMix.source 3).resolve "/" .root
        (.toPath "/door")).runFrom (.start default 7 (.empty default)) = (.ok node, s') := by
  obtain ⟨node, s', hrun, hpaths⟩ := Roll.exists_ok_of_any
    (m := (Roller.mk (Registry.door.register (.trap "a pit")) SplitMix.source 3).resolve "/" .root
      (.toPath "/door"))
    (s := .start default 7 (.empty default))
    (p := fun node => node.Throughout fun sub => "/trap" ≠ sub.path) (by decide +kernel)
  have hagrees : node.Throughout fun sub =>
      (Registry.door.register (.trap "a dart")).get? sub.path =
        (Registry.door.register (.trap "a pit")).get? sub.path := by
    refine (of_decide_eq_true hpaths).mono fun sub hsub => ?_
    rw [Registry.get?_register, Registry.get?_register]
    exact (if_neg hsub).trans (if_neg hsub).symm
  have hsame := resolve_of_registry_agrees
    ⟨Registry.door.register (.trap "a pit"), SplitMix.source, 3⟩
    (Registry.door.register (.trap "a dart")) rfl "/" .root (.toPath "/door") _ _ _ hrun hagrees
  exact ⟨node, s', hrun, hagrees, hsame⟩

/-- The limit shows in an outcome by leaves that have a definition, and by nothing else: if there is
no such leaf, inputs and extra text included, then every higher limit gives the same outcome from
the same state, and the states after it are the same, with their seed and their log; and if every
higher limit does, there is no such leaf. -/
theorem limit_unseen_iff (r : Roller) (directory : Text) (context : Context) (ref : Reference)
    (s s' : RollState) (node : Node)
    (h : (r.resolve directory context ref).runFrom s = (.ok node, s')) :
    (node.Throughout fun sub => sub.isLeaf → r.registry.get? sub.path = none) ↔
      ∀ maxDepth, r.maxDepth ≤ maxDepth →
        ((r.lookingIn r.registry maxDepth).resolve directory context ref).runFrom s =
          (.ok node, s') := by
  obtain ⟨run⟩ := (succeeds_iff_run (j := .reference directory context ref)).1 h
  constructor
  · intro hleaves maxDepth hle
    obtain ⟨again⟩ := run.retraced rfl hle fun root hnode => by
      obtain rfl := List.mem_singleton.1 hnode
      exact hleaves.mono fun sub hsub => ⟨rfl, fun hleaf => .inr (hsub hleaf)⟩
    exact succeeds_of_run again
  · intro hall level sub hsub hleaf
    -- A limit that reaches down to the leaf cannot cut it off.
    have hhigh := hall (max r.maxDepth (context.depth + level)) (Int.le_max_left ..)
    obtain ⟨again⟩ := (succeeds_iff_run (j := .reference directory context ref)).1 hhigh
    rcases again.absent_or_cut_of_leaf hsub hleaf with hnone | hcut
    · exact hnone
    · have : context.depth + level ≤ max r.maxDepth (context.depth + level) := Int.le_max_right ..
      change max r.maxDepth (context.depth + level) + 1 < _ at hcut
      omega

/-- A limit of one is enough for the vault: its only leaf is the ghost that is not there, so a limit
of nine gives the same. -/
theorem vault_limit_unseen :
    ∃ node s', ((Roller.mk .vault SplitMix.source 1).resolve "/" .root (.toPath "/vault")).runFrom
        (.start default 7 (.empty default)) = (.ok node, s') ∧
      (node.Throughout fun sub => sub.isLeaf → Registry.vault.get? sub.path = none) ∧
      ((Roller.mk .vault SplitMix.source 9).resolve "/" .root (.toPath "/vault")).runFrom
        (.start default 7 (.empty default)) = (.ok node, s') := by
  obtain ⟨node, s', hrun, hleaves⟩ := Roll.exists_ok_of_any
    (m := (Roller.mk .vault SplitMix.source 1).resolve "/" .root (.toPath "/vault"))
    (s := .start default 7 (.empty default))
    (p := fun node =>
      node.Throughout fun sub => sub.isLeaf → Registry.vault.get? sub.path = none)
    (by decide +kernel)
  have habsent := of_decide_eq_true hleaves
  exact ⟨node, s', hrun, habsent,
    (limit_unseen_iff _ _ _ _ _ _ _ hrun).1 habsent 9 (by decide)⟩

end Roller
end RandomTables
