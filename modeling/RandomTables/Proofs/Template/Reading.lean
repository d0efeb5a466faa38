import RandomTables.Proofs.Template.Resolvable
import RandomTables.Proofs.Template.Runs

/-!
# Reading a resolved text

A resolved text is read from left to right, through the blocks that were selected and past those
that were not. Read along with its template it tells what the pass had come by at each point. The
values that come before a placeholder in the text are the values it can be filled in with, whatever
block they or it stand in, and the values of the whole text are those that are noted and stored.
-/
namespace RandomTables

namespace Bindings
variable {α β : Type}

/-- A name that is not among those of the entries has no value in them. -/
theorem lookup_eq_none {name : Text} {entries : List (Text × α)} (h : name ∉ entries.map (·.1)) :
    lookup name entries = none := by
  induction entries with
  | nil => rfl
  | cons e rest ih =>
    rw [List.map_cons, List.mem_cons, not_or] at h
    rw [lookup, if_neg (Ne.symm h.1), ih h.2]

/-- Where some of the values of entries under distinct names are translated and bound, and the others
left out, a name is bound to the translation of its value. -/
theorem get?_setAll_filterMap (f : α → Option β) {entries : List (Text × α)}
    (h : (entries.map (·.1)).Nodup) (b : Bindings β) (name : Text) :
    (b.setAll (entries.filterMap fun e => (f e.2).map fun n => (e.1, n))).get? name =
      ((lookup name entries).bind f <|> b.get? name) := by
  induction entries generalizing b with
  | nil => rfl
  | cons e rest ih =>
    obtain ⟨key, value⟩ := e
    rw [List.map_cons, List.nodup_cons] at h
    obtain ⟨hkey, hrest⟩ := h
    cases hf : f value with
    | none =>
      rw [List.filterMap_cons_none (by simp [hf]), ih hrest]
      by_cases heq : key = name
      · subst heq
        simp [lookup, lookup_eq_none hkey, hf]
      · simp [lookup, heq]
    | some n =>
      rw [List.filterMap_cons_some (b := (key, n)) (by simp [hf])]
      rw [setAll, List.foldl_cons, ← setAll, ih hrest, get?_set]
      by_cases heq : key = name
      · subst heq
        simp [lookup, lookup_eq_none hkey, hf]
      · simp [lookup, heq]

theorem get?_ofList_filterMap (f : α → Option β) {b : Bindings α} (h : b.keys.Nodup) (name : Text) :
    (ofList (b.entries.filterMap fun e => (f e.2).map fun n => (e.1, n))).get? name =
      (b.get? name).bind f := by
  rw [ofList, get?_setAll_filterMap f h, get?_empty, get?]
  exact Option.orElse_eq_or.trans (Option.or_none ..)

end Bindings

namespace Resolved

/-- The value of a piece, if it is one under that name. -/
def valueUnder? (name : Text) : Resolved → Option Int
  | value key n _ => if key = name then some n else none
  | _ => none

/-- The values under a name in some pieces, in order. -/
def valuesUnder (name : Text) (pieces : List Resolved) : List Int :=
  pieces.filterMap (valueUnder? name)

end Resolved

namespace Template
open Component (AllResolvable)
open Resolved (valuesUnder)
open Roll

/-! ## Text and template side by side -/

mutual

/-- A component and its piece, read as pairs of components that are no blocks with their pieces: a
block that was passed over holds none, and one that was selected holds those of its inner list. -/
inductive ReadsOne : Component → Resolved → List (Component × Resolved) → Prop
  | leaf {c : Component} (hc : c.chance? = none) (piece : Resolved) : ReadsOne c piece [(c, piece)]
  | passedOver (chance : Nat) (label : Text) (inner : List Component) :
    ReadsOne (.percent chance label inner) (.percent label chance false []) []
  | selected (chance : Nat) (label : Text) {inner : List Component} {text : List Resolved}
    {reading : List (Component × Resolved)} :
    Reads inner text reading →
    ReadsOne (.percent chance label inner) (.percent label chance true text) reading

/-- A template and its text, read from left to right. -/
inductive Reads : List Component → List Resolved → List (Component × Resolved) → Prop
  | nil : Reads [] [] []
  | cons {c : Component} {piece : Resolved} {cs : List Component} {pieces : List Resolved}
    {first others : List (Component × Resolved)} :
    ReadsOne c piece first → Reads cs pieces others →
    Reads (c :: cs) (piece :: pieces) (first ++ others)

end

/-- What is behind the placeholder of this key and number after some pieces of text: the value of
that number among the values under the key there, or else the input of that number, or else, for the
first number only, the variable. -/
def Surroundings.behind? (s : Surroundings) (before : List Resolved) (key : Text) (index : Nat) :
    Option Text :=
  match (valuesUnder key before)[index]?, ((s.inputs.get? key).getD [])[index]? with
  | some value, _ => some (Text.integer value)
  | none, some input => some input
  | none, none => if index = 0 then (s.context.vars.get? key).map Text.integer else none

/-- A component that is no block may come to the piece where some pieces come before it. -/
inductive Fits (s : Surroundings) (before : List Resolved) : Component → Resolved → Prop
  | plain (text : Text) : Fits s before (.plain text) (.plain text)
  | found {p : Placeholder} {text : Text} : s.behind? before p.key p.index = some text →
    Fits s before (.input p)
      (.input p.key ((p.transform.map fun t => t.apply text).getD text) p.color p.background true)
  | missing {p : Placeholder} : s.behind? before p.key p.index = none →
    Fits s before (.input p) (.input p.key "" p.color p.background false)
  | value (name : Text) (expr : Dice.Expr) (total : Int) (groups : List DiceGroup) :
    Fits s before (.computed name expr) (.value name total groups)
  | reference (ref : Reference) (index : Nat) (name : Option Text) :
    Fits s before (.reference ref name) (.reference index name)

/-- The pairs of a reading fit, each after those before it. -/
def AllFit (s : Surroundings) (before : List Resolved) : List (Component × Resolved) → Prop
  | [] => True
  | (c, piece) :: rest => Fits s before c piece ∧ AllFit s (before ++ [piece]) rest

/-- What is noted under a name are the values under it in the text, all of them in order. -/
def Notes (values : Bindings (List Int)) (text : List Resolved) : Prop :=
  ∀ name ns, values.get? name = some ns ↔ ns ≠ [] ∧ ns = valuesUnder name text

variable {source : Source} {s : Surroundings} {before : List Resolved}

theorem allFit_append {first others : List (Component × Resolved)} :
    AllFit s before (first ++ others) ↔
      AllFit s before first ∧ AllFit s (before ++ first.map Prod.snd) others := by
  induction first generalizing before with
  | nil => simp [AllFit]
  | cons pair first ih => simp [AllFit, ih, and_assoc]

/-! ## What is noted -/

namespace Notes
variable {values : Bindings (List Int)} {text : List Resolved}

theorem empty : Notes .empty [] := by
  intro name ns
  simp [valuesUnder]

theorem getD_eq (h : Notes values text) (name : Text) :
    (values.get? name).getD [] = valuesUnder name text := by
  cases hget : values.get? name with
  | some ns => exact ((h name ns).1 hget).2
  | none =>
    cases hvalues : valuesUnder name text with
    | nil => rfl
    | cons n ns =>
      have hsome := (h name (n :: ns)).2 ⟨List.cons_ne_nil n ns, hvalues.symm⟩
      rw [hget] at hsome
      cases hsome

/-- The value of some number under a name is looked up in what is noted there. -/
theorem bind_eq {γ : Type} (h : Notes values text) (name : Text) (f : List Int → Option γ)
    (hf : f [] = none) : (values.get? name).bind f = f (valuesUnder name text) := by
  rw [← h.getD_eq]
  cases values.get? name with
  | some ns => rfl
  | none => exact hf.symm

/-- A piece that is no value leaves what is noted as it is. -/
theorem append_of_none {piece : Resolved} (h : Notes values text)
    (hpiece : ∀ name, piece.valueUnder? name = none) : Notes values (text ++ [piece]) := by
  intro name ns
  rw [h name ns]
  simp [valuesUnder, hpiece]

/-- A value is noted under its name behind those that are there. -/
theorem append_value {pass : Pass} (h : Notes pass.values text) (name : Text) (total : Int)
    (groups : List DiceGroup) :
    Notes (pass.noteValue name total).values (text ++ [.value name total groups]) := by
  intro other ns
  rw [Pass.noteValue, Bindings.get?_set, h.getD_eq]
  by_cases heq : name = other
  · subst heq
    have hvalues : valuesUnder name (text ++ [.value name total groups]) =
        valuesUnder name text ++ [total] := by
      simp [valuesUnder, Resolved.valueUnder?]
    rw [hvalues, if_pos rfl, Option.some_inj]
    constructor
    · rintro rfl
      exact ⟨List.append_ne_nil_of_right_ne_nil _ (List.cons_ne_nil _ _), rfl⟩
    · exact fun h => h.2.symm
  · have hvalues : valuesUnder other (text ++ [.value name total groups]) =
        valuesUnder other text := by
      simp [valuesUnder, Resolved.valueUnder?, heq]
    rw [hvalues, if_neg heq]
    exact h other ns

/-- With what is noted, a placeholder finds what is behind it after the text so far. -/
theorem textUnder_eq (h : Notes values text) (key : Text) (index : Nat) :
    s.textUnder values key index = s.behind? text key index := by
  have hinputs : ((s.inputs.get? key).bind fun found => found[index]?) =
      ((s.inputs.get? key).getD [])[index]? := by
    cases s.inputs.get? key with
    | some found => rfl
    | none => rfl
  unfold Surroundings.textUnder Surroundings.behind?
  rw [h.bind_eq key _ rfl, hinputs]
  cases (valuesUnder key text)[index]? with
  | some value => rfl
  | none =>
    cases ((s.inputs.get? key).getD [])[index]? with
    | some input => rfl
    | none => rfl

theorem fits_fill (h : Notes values text) (p : Placeholder) :
    Fits s text (.input p) (s.fill values p) := by
  unfold Surroundings.fill
  rw [h.textUnder_eq]
  cases hbehind : s.behind? text p.key p.index with
  | some found => exact .found hbehind
  | none => exact .missing hbehind

/-- What is stored for a target is the last value under the name that it is stored from, or else the
variable of that name. -/
theorem get?_storedOf (h : Notes values text) {store : Bindings Text} (hstore : store.keys.Nodup)
    (context : Context) (target : Text) :
    (storedOf store values context).get? target = (store.get? target).bind fun name =>
      ((valuesUnder name text).getLast? <|> context.vars.get? name) := by
  have hlast : ∀ name, (values.get? name).bind List.getLast? =
      (valuesUnder name text).getLast? := fun name => h.bind_eq name _ rfl
  simp only [storedOf, hlast]
  exact Bindings.get?_ofList_filterMap
    (fun name => (valuesUnder name text).getLast? <|> context.vars.get? name) hstore target

end Notes

/-! ## Runs -/

variable {t t' : RollState} {pass after : Pass} {text : List Resolved}

theorem fits_of_comes {c : Component} {piece : Resolved} (hc : c.chance? = none)
    (h : Comes source s t pass c piece t' after) (hnotes : Notes pass.values before) :
    Fits s before c piece ∧ Notes after.values (before ++ [piece]) := by
  cases h with
  | plain text => exact ⟨.plain text, hnotes.append_of_none fun _ => rfl⟩
  | input placeholder =>
    obtain ⟨text, found, hfill⟩ := s.exists_fill_eq pass.values placeholder
    refine ⟨hnotes.fits_fill placeholder, hnotes.append_of_none fun _ => ?_⟩
    rw [hfill]
    rfl
  | @computed _ _ name expr total groups _ =>
    exact ⟨.value name expr total groups, hnotes.append_value name total groups⟩
  | reference ref name =>
    exact ⟨.reference ref pass.refs.length name, hnotes.append_of_none fun _ => rfl⟩
  | passedOver => cases hc
  | selected => cases hc

theorem reads_of_leaf {chances next : Chances} {c : Component} {piece : Resolved}
    (hc : c.chance? = none)
    (h : (resolveOne source s chances pass c).runFrom t = (.ok (piece, next, after), t'))
    (hnotes : Notes pass.values before) :
    ∃ reading, ReadsOne c piece reading ∧ AllFit s before reading ∧
      Notes after.values (before ++ reading.map Prod.snd) := by
  obtain ⟨hfits, hafter⟩ := fits_of_comes hc (comes_of_no_block hc h).1 hnotes
  exact ⟨[(c, piece)], .leaf hc piece, ⟨hfits, trivial⟩, hafter⟩

mutual

theorem reads_of_resolveOne {chances next : Chances} {piece : Resolved} {before : List Resolved}
    {pass after : Pass} {t t' : RollState} :
    (c : Component) →
      (resolveOne source s chances pass c).runFrom t = (.ok (piece, next, after), t') →
        Notes pass.values before →
          ∃ reading, ReadsOne c piece reading ∧ AllFit s before reading ∧
            Notes after.values (before ++ reading.map Prod.snd)
  | .plain _, h, hnotes | .input _, h, hnotes | .computed _ _, h, hnotes
  | .reference _ _, h, hnotes => reads_of_leaf rfl h hnotes
  | .percent chance label inner, h, hnotes => by
    rcases resolveOne_percent_eq_ok_iff.1 h with ⟨u, text, -, hrun, rfl⟩ | ⟨-, rfl, rfl⟩
    · obtain ⟨reading, hreads, hfit, hafter⟩ := reads_of_resolveAll inner hrun hnotes
      exact ⟨reading, .selected chance label hreads, hfit, hafter⟩
    · refine ⟨[], .passedOver chance label inner, trivial, ?_⟩
      rwa [List.map_nil, List.append_nil]

/-- Where what is noted is what was read before, a list goes on with a reading that fits, and what is
noted then is what was read so far. -/
theorem reads_of_resolveAll {chances : Chances} {before text : List Resolved}
    {pass after : Pass} {t t' : RollState} :
    (cs : List Component) →
      (resolveAll source s chances pass cs).runFrom t = (.ok (text, after), t') →
        Notes pass.values before →
          ∃ reading, Reads cs text reading ∧ AllFit s before reading ∧
            Notes after.values (before ++ reading.map Prod.snd)
  | [], h, hnotes => by
    obtain ⟨rfl, rfl, rfl⟩ := resolveAll_nil_eq_ok_iff.1 h
    refine ⟨[], .nil, trivial, ?_⟩
    rwa [List.map_nil, List.append_nil]
  | c :: cs, h, hnotes => by
    obtain ⟨piece, next, mid, u, pieces, hone, hall, rfl⟩ := resolveAll_cons_eq_ok_iff.1 h
    obtain ⟨first, hfirst, hfits, hmid⟩ := reads_of_resolveOne c hone hnotes
    obtain ⟨others, hothers, hfit, hafter⟩ := reads_of_resolveAll cs hall hmid
    refine ⟨first ++ others, .cons hfirst hothers, allFit_append.2 ⟨hfits, hfit⟩, ?_⟩
    rwa [List.map_append, ← List.append_assoc]

end

/-- A template can be resolved, and what its placeholders, its values and what is stored come to can
be read off the text. The text is read along with the template, through the blocks that were
selected: each placeholder has been filled in with what is behind it after the pieces that come
before it, the values noted under a name are all values under that name in the text, and each target
of the store, where it stands once, has the last value under the name that it is stored from, or else
the variable of that name. -/
theorem resolve_reads (source : Source) (s : Surroundings) {store : Bindings Text}
    (hstore : store.keys.Nodup) {template : List Component} (h : AllResolvable template)
    (t : RollState) :
    ∃ found t' reading, (resolve source s store template).runFrom t = (.ok found, t') ∧
      Reads template found.text reading ∧
      (∀ before c piece behind, reading = before ++ (c, piece) :: behind →
        Fits s (before.map Prod.snd) c piece) ∧
      Notes found.values (reading.map Prod.snd) ∧
      ∀ target, found.stored.get? target = (store.get? target).bind fun name =>
        ((valuesUnder name (reading.map Prod.snd)).getLast? <|> s.context.vars.get? name) := by
  obtain ⟨⟨text, after⟩, t', hrun, -⟩ := resolveAll_succeeds source s .start .start template h t
  obtain ⟨reading, hreads, hfit, hnotes⟩ := reads_of_resolveAll template hrun Notes.empty
  rw [List.nil_append] at hnotes
  refine ⟨_, t', reading, runFrom_bind_of_ok hrun, hreads, ?_, hnotes,
    hnotes.get?_storedOf hstore s.context⟩
  rintro before c piece behind rfl
  exact (allFit_append.1 hfit).2.1

/-- A number, a block with another number and a placeholder for it, and placeholders for a third
number, a variable and a second variable of that name. -/
def ledger : List Component :=
  [.computed "n" (.dice 1 6 false),
    .percent 100 "100%" [.computed "n" (.dice 1 6 false), .input ⟨"n", none, none, none, 1⟩],
    .input ⟨"n", none, none, some .uppercase, 2⟩, .input ⟨"level", none, none, none, 0⟩,
    .input ⟨"level", none, none, none, 1⟩]

/-- What the placeholders of the ledger are filled in with: the inputs under `n` are reached behind
the values. -/
def ledgerSurroundings : Surroundings :=
  ⟨⟨0, .ofList [("level", 3)]⟩, .ofList [("n", ["a", "b", "c"])]⟩

/-- What is stored from the ledger: a number, a variable, and something that is neither. -/
def ledgerStore : Bindings Text := ⟨[("last", "n"), ("depth", "level"), ("other", "m")]⟩

/-- With 4 and 2 for the numbers, the third number is the third input, and the last number and the
variable are stored. -/
theorem ledger_reads :
    ledgerStore.keys.Nodup ∧ AllResolvable ledger ∧
      ∃ found t' reading,
        (resolve (Replay.start 0 #[4, 15, 2]).source ledgerSurroundings ledgerStore ledger).runFrom
          (.start default 0 (.empty default)) = (.ok found, t') ∧
        Resolved.writeAll [] found.text = "422C3" ∧
        found.values.get? "n" = some [4, 2] ∧
        ledgerStore.keys.map found.stored.get? = [some 2, some 3, none] ∧
        Reads ledger found.text reading ∧
        (∀ before c piece behind, reading = before ++ (c, piece) :: behind →
          Fits ledgerSurroundings (before.map Prod.snd) c piece) ∧
        Notes found.values (reading.map Prod.snd) ∧
        ∀ target, found.stored.get? target = (ledgerStore.get? target).bind fun name =>
          ((valuesUnder name (reading.map Prod.snd)).getLast? <|>
            ledgerSurroundings.context.vars.get? name) := by
  have hstore : ledgerStore.keys.Nodup := by decide
  have hresolvable : AllResolvable ledger := by
    simp [ledger, AllResolvable, Component.Resolvable]
  obtain ⟨found, t', reading, hrun, hread⟩ := resolve_reads (Replay.start 0 #[4, 15, 2]).source
    ledgerSurroundings hstore hresolvable (.start default 0 (.empty default))
  have hfound : ((resolve (Replay.start 0 #[4, 15, 2]).source ledgerSurroundings ledgerStore
      ledger).runFrom (.start default 0 (.empty default))).1.toOption.map (fun found =>
        (Resolved.writeAll [] found.text, found.values.get? "n",
          ledgerStore.keys.map found.stored.get?)) =
      some (Text.ofString "422C3", some [4, 2], [some 2, some 3, none]) := by decide +kernel
  rw [hrun] at hfound
  simp only [Except.toOption, Option.map_some, Option.some_inj, Prod.mk.injEq] at hfound
  obtain ⟨htext, hvalues, hstored⟩ := hfound
  exact ⟨hstore, hresolvable, found, t', reading, hrun, htext, hvalues, hstored, hread⟩

end Template
end RandomTables
