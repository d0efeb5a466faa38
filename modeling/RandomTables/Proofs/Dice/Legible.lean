import RandomTables.Proofs.Dice.Notation

/-!
# Spellings that are read

Every expression has a spelling, but not every spelling is read: dice without sides are refused, and
so are two minuses where one may stand. Both can be seen from one sign after the other, without
taking the text apart. A scan that does this gets through whatever the grammar derives, and through
no other spelling. From those it gets through the expression is read, with a minus in front of the
number of dice taken for the sign of the dice.
-/
namespace RandomTables.Dice

/-! ## Scanning sign by sign -/

/-- What the scan is waiting for: a term with a minus or without, a term after its minus, a digit
other than zero of the number of sides, or, a term having ended, an operator. -/
inductive Awaits where
  | term
  | unsigned
  | sides
  | operator
  deriving DecidableEq

namespace Awaits

/-- Go on with one sign. Blanks may stand everywhere but in front of the number of sides. -/
def step (state : Awaits) (c : CodePoint) : Option Awaits :=
  match Text.digitValue? c with
  | some d => some (if state = sides ∧ d = 0 then sides else operator)
  | none =>
    if state = sides then none
    else if Text.isBlank c then some state
    else
      match state, c with
      | _, .char 'd' => some sides
      | _, .char 'D' => some sides
      | term, .char '-' => some unsigned
      | term, .char '(' => some term
      | operator, .char ')' => some operator
      | operator, .char '+' => some term
      | operator, .char '-' => some term
      | operator, .char '*' => some term
      | _, _ => none

/-- Go on with the signs of a text. -/
def run (state : Awaits) (s : Text) : Option Awaits := s.foldlM step state

variable {state after last : Awaits} {s t rest : Text}

theorem run_cons (state : Awaits) (c : CodePoint) (s : Text) :
    state.run (c :: s) = (state.step c).bind fun after => after.run s := rfl

theorem run_append (state : Awaits) (s t : Text) :
    state.run (s ++ t) = (state.run s).bind fun after => after.run t := List.foldlM_append

/-- A digit ends a term, unless it is a zero in front of the other digits of the sides. -/
theorem step_digit {c : CodePoint} {d : Nat} (h : Text.digitValue? c = some d) (state : Awaits) :
    state.step c = some (if state = sides ∧ d = 0 then sides else operator) := by
  unfold step
  rw [h]

/-- A number ends a term, unless it is zero and stands for the sides. -/
theorem run_digits {n : Nat} (h : Text.Denotes s n) (state : Awaits) :
    state.run s = some (if state = sides ∧ n = 0 then sides else operator) := by
  induction h with
  | one hd =>
    rw [run_cons, step_digit hd]
    rfl
  | @more s c n d _ hd ih =>
    rw [run_append, ih, Option.bind_some, run_cons, step_digit hd, Option.bind_some]
    by_cases hstate : state = sides
    · by_cases hn : n = 0
      · simp [run, hstate, hn]
      · have hmore : n * 10 + d ≠ 0 := by omega
        simp only [run, hn, hmore, and_false, if_false, List.foldlM_nil, reduceCtorEq, false_and]
        rfl
    · simp [run, hstate]

theorem step_blank {c : CodePoint} (hc : Text.isBlank c) (hstate : state ≠ sides) :
    state.step c = some state := by
  have hnone : Text.digitValue? c = none := by
    cases hd : Text.digitValue? c with
    | none => rfl
    | some d =>
      have hsign := Text.isDigitSign_of_isDecimal (Text.isDecimal_of_digitValue? hd)
      rw [Text.isBlank_of_isDigitSign hsign] at hc
      cases hc
  unfold step
  rw [hnone]
  simp only [if_neg hstate, if_pos hc]

theorem run_blank (hs : Text.allBlank s) (hstate : state ≠ sides) : state.run s = some state := by
  induction s with
  | nil => rfl
  | cons c s ih =>
    obtain ⟨hc, hs⟩ := Bool.and_eq_true_iff.1 hs
    rw [run_cons, step_blank hc hstate, Option.bind_some, ih hs]

theorem of_step_minus (h : state.step (.char '-') = some after) :
    (state = term ∨ state = operator) ∧ after ≠ sides := by
  have hdigit : Text.digitValue? (.char '-') = none := by decide +kernel
  have hblank : Text.isBlank (.char '-') = false := by decide
  unfold step at h
  rw [hdigit] at h
  cases state <;> simp [hblank] at h <;> subst h <;> decide

theorem step_operator_sign (op : Operator) : operator.step op.sign = some term := by
  cases op <;> decide +kernel

/-- The scan gets through everything in front of the rest. -/
def Passes (state : Awaits) (s rest : Text) (last : Awaits) : Prop :=
  ∃ used, s = used ++ rest ∧ state.run used = some last

theorem Passes.trans (h : state.Passes s t after) (h' : after.Passes t rest last) :
    state.Passes s rest last := by
  obtain ⟨used, rfl, hused⟩ := h
  obtain ⟨more, rfl, hmore⟩ := h'
  exact ⟨used ++ more, (List.append_assoc ..).symm, by rw [run_append, hused]; exact hmore⟩

theorem Passes.blank {ws : Text} (hws : Text.allBlank ws) (hstate : state ≠ sides) (rest : Text) :
    state.Passes (ws ++ rest) rest state :=
  ⟨ws, rfl, run_blank hws hstate⟩

theorem Passes.sign {c : CodePoint} (h : state.step c = some after) (rest : Text) :
    state.Passes (c :: rest) rest after :=
  ⟨[c], rfl, by rw [run_cons, h]; rfl⟩

end Awaits

open Awaits (Passes)

/-! ## What is derived is passed -/

theorem Number.passes {s rest : Text} {n : Nat} (h : Number s n rest) (state : Awaits)
    (hn : state = .sides → 0 < n) : state.Passes s rest .operator := by
  cases h with
  | @run digits _ _ hdigits _ =>
    refine ⟨digits, rfl, ?_⟩
    rw [Awaits.run_digits hdigits, if_neg]
    rintro ⟨hstate, hzero⟩
    exact Nat.ne_of_gt (hn hstate) hzero

theorem Sign.passes {s rest : Text} {negative : Bool} (h : Sign s negative rest) :
    Awaits.term.Passes s rest (if negative then .unsigned else .term) := by
  cases h with
  | plus hws => exact .blank hws (by decide) rest
  | minus hws hws' =>
    have hminus : Awaits.term.step (.char '-') = some .unsigned := by decide +kernel
    exact (Passes.blank hws (by decide) _).trans ((Passes.sign hminus _).trans
      (.blank hws' (by decide) rest))

/-- The number of dice and the letter behind it are passed, with a minus in front or without. -/
theorem Count.passes {s rest : Text} {n : Nat} {letter : CodePoint}
    (h : Count s n (letter :: rest)) (hletter : letter = .char 'd' ∨ letter = .char 'D')
    (negative : Bool) :
    (if negative then Awaits.unsigned else Awaits.term).Passes s rest .sides := by
  have hstep : ∀ state ∈ [Awaits.term, .unsigned, .operator],
      Awaits.step state letter = some .sides := by
    rcases hletter with rfl | rfl <;> decide +kernel
  cases h with
  | absent =>
    refine .sign (hstep _ ?_) rest
    cases negative <;> decide
  | given hn =>
    refine (hn.passes _ ?_).trans (.sign (hstep .operator (by decide)) rest)
    cases negative <;> nofun

mutual

theorem Term.passes {s rest : Text} {e : Expr} : Term s e rest → Awaits.term.Passes s rest .operator
  | .parentheses hws hinner hws' =>
    have hopen : Awaits.term.step (.char '(') = some .term := by decide +kernel
    have hclose : Awaits.operator.step (.char ')') = some .operator := by decide +kernel
    (Passes.blank hws (by decide) _).trans <| (Passes.sign hopen _).trans <|
      hinner.passes.trans <| (Passes.blank hws' (by decide) _).trans (.sign hclose rest)
  | @Term.constant _ _ _ negative _ hsign hn =>
    hsign.passes.trans (hn.passes _ (by cases negative <;> nofun))
  | @Term.dice _ _ _ _ _ negative _ _ hsign hcount hletter hsides hpos =>
    hsign.passes.trans ((hcount.passes hletter negative).trans (hsides.passes .sides fun _ => hpos))

theorem Joined.passes {s rest : Text} {e : Expr} :
    Joined s e rest → Awaits.term.Passes s rest .operator
  | .term h => h.passes
  | .join hleft hws hright =>
    hleft.passes.trans <| (Passes.blank hws (by decide) _).trans <|
      (Passes.sign (Awaits.step_operator_sign _) _).trans hright.passes

end

/-- The scan gets through every text that spells an expression. -/
theorem Spells.run_eq {s : Text} {e : Expr} (h : Spells s e) :
    Awaits.term.run s = some .operator := by
  cases h with
  | @mk ws s ws' e hws hjoined hws' =>
    have hend : Awaits.operator.Passes (ws' ++ []) [] .operator := .blank hws' (by decide) []
    rw [List.append_nil] at hend
    obtain ⟨used, hused, hrun⟩ :=
      (Passes.blank hws (by decide) s).trans (hjoined.passes.trans hend)
    rwa [hused, List.append_nil]

/-! ## Spellings that the scan gets through -/

namespace Expr

/-- The spelling of the expression is read: all dice have sides, and dice that count negatively are
no fewer than none. -/
def Legible : Expr → Prop
  | constant _ => True
  | dice count sides negative => 0 < sides ∧ (negative → 0 ≤ count)
  | join _ left right => left.Legible ∧ right.Legible

/-- What the spelling is read as: fewer dice than none are as many dice that count negatively. -/
def signed : Expr → Expr
  | constant value => constant value
  | dice count sides negative => dice count.natAbs sides (negative || decide (count < 0))
  | join op left right => join op left.signed right.signed

variable {e : Expr}

theorem exists_of_run_append {state last : Awaits} {s t : Text}
    (h : state.run (s ++ t) = some last) :
    ∃ after, state.run s = some after ∧ Awaits.run after t = some last := by
  rwa [Awaits.run_append, Option.bind_eq_some_iff] at h

/-- A number below zero is passed where a minus may stand. -/
theorem of_run_integer {state last : Awaits} {n : Int}
    (h : state.run (Text.integer n) = some last) :
    (n < 0 → state = .term ∨ state = .operator) ∧
      last = if state = .sides ∧ n = 0 then .sides else .operator := by
  have hdigits := fun state => Awaits.run_digits (Text.denotes_natural n.natAbs) state
  rw [Text.integer] at h
  by_cases hneg : n < 0
  · rw [if_pos hneg, Awaits.run_cons, Option.bind_eq_some_iff] at h
    obtain ⟨after, hafter, hlast⟩ := h
    obtain ⟨hstate, hne⟩ := Awaits.of_step_minus hafter
    rw [hdigits after, if_neg fun h => hne h.1] at hlast
    rw [if_neg fun h => Int.ne_of_lt hneg h.2]
    exact ⟨fun _ => hstate, (Option.some.inj hlast).symm⟩
  · rw [if_neg hneg, hdigits state] at h
    simp only [Int.natAbs_eq_zero] at h
    exact ⟨fun hlt => absurd hlt hneg, (Option.some.inj h).symm⟩

/-- The spelling of dice is passed if their sides are no fewer than none and no minus stands twice. -/
theorem of_run_dice {count sides : Int} {negative : Bool} {last : Awaits}
    (h : Awaits.term.run (dice count sides negative).text = some last) :
    last = (if sides = 0 then .sides else .operator) ∧ 0 ≤ sides ∧ (negative → 0 ≤ count) := by
  obtain ⟨_, h, hsides⟩ := exists_of_run_append h
  obtain ⟨_, h, hletter⟩ := exists_of_run_append h
  obtain ⟨start, hsign, hcount⟩ := exists_of_run_append h
  have hstart : start = if negative then .unsigned else .term := by
    cases negative with
    | true => exact Option.some.inj (hsign.symm.trans (by decide +kernel))
    | false => exact Option.some.inj (hsign.symm.trans rfl)
  obtain ⟨hminus, hcounted⟩ := of_run_integer hcount
  have hne : start ≠ .sides := by cases negative <;> simp [hstart]
  rw [if_neg fun h => hne h.1] at hcounted
  subst hcounted
  have hstep : Awaits.operator.run "d" = some .sides := by decide +kernel
  obtain rfl := Option.some.inj (hletter.symm.trans hstep)
  obtain ⟨hpos, hlast⟩ := of_run_integer hsides
  refine ⟨by simpa using hlast, Int.not_lt.1 fun hneg => ?_, ?_⟩
  · rcases hpos hneg with h | h <;> cases h
  · rintro rfl
    refine Int.not_lt.1 fun hneg => ?_
    rcases hminus hneg with h | h <;> cases hstart.symm.trans h

/-- A parenthesis is closed after a whole term only. -/
theorem of_run_parentheses {s : Text} {last : Awaits}
    (h : Awaits.term.run ("(" ++ s ++ ")") = some last) :
    Awaits.term.run s = some .operator ∧ last = .operator := by
  obtain ⟨inner, h, hclose⟩ := exists_of_run_append h
  obtain ⟨start, hopen, hinner⟩ := exists_of_run_append h
  have hopened : Awaits.term.run "(" = some .term := by decide +kernel
  obtain rfl := Option.some.inj (hopen.symm.trans hopened)
  have hclosed : ∀ state last, Awaits.run state ")" = some last →
      state = .operator ∧ last = .operator := by
    intro state last h
    cases state with
    | operator => exact ⟨rfl, Option.some.inj (h.symm.trans (by decide +kernel))⟩
    | term | unsigned | sides => cases h.symm.trans (by decide +kernel : _ = none)
  obtain ⟨rfl, rfl⟩ := hclosed inner last hclose
  exact ⟨hinner, rfl⟩

/-- A spelling that the scan gets through is read, unless zero sides stand at its end. -/
theorem legible_of_run {last : Awaits} (h : Awaits.term.run e.text = some last) :
    last = .sides ∨ last = .operator ∧ e.Legible := by
  induction e generalizing last with
  | constant value =>
    obtain ⟨-, hlast⟩ := of_run_integer h
    exact .inr ⟨hlast, trivial⟩
  | dice count sides negative =>
    obtain ⟨hlast, hsides, hcount⟩ := of_run_dice h
    by_cases hzero : sides = 0
    · exact .inl (by rw [hlast, if_pos hzero])
    · exact .inr ⟨by rw [hlast, if_neg hzero], by omega, hcount⟩
  | join op left right ihleft ihright =>
    obtain ⟨mid, hleft, h⟩ := exists_of_run_append h
    rw [Awaits.run_cons, Option.bind_eq_some_iff] at h
    obtain ⟨_, hop, h⟩ := h
    rcases ihleft hleft with rfl | ⟨rfl, hlegible⟩
    · have hnone : Awaits.sides.step op.sign = none := by cases op <;> decide +kernel
      cases hnone.symm.trans hop
    obtain rfl := Option.some.inj (hop.symm.trans (Awaits.step_operator_sign op))
    cases hjoin : right.isJoin with
    | false =>
      rw [hjoin] at h
      exact (ihright h).imp_right fun ⟨hlast, hright⟩ => ⟨hlast, hlegible, hright⟩
    | true =>
      rw [hjoin] at h
      obtain ⟨hinner, rfl⟩ := of_run_parentheses h
      rcases ihright hinner with hsides | ⟨-, hright⟩
      · cases hsides
      · exact .inr ⟨rfl, hlegible, hright⟩

theorem isJoin_signed : e.signed.isJoin = e.isJoin := by
  cases e <;> rfl

/-- Taking the minus in front of a number of dice for their sign does not change the spelling. -/
theorem text_signed (h : e.Legible) : e.signed.text = e.text := by
  induction e with
  | constant value => rfl
  | dice count sides negative =>
    have hcount : Text.ofString (if (negative || decide (count < 0)) = true then "-" else "") ++
        Text.natural count.natAbs = (if negative then "-" else "") ++ Text.integer count := by
      by_cases hneg : count < 0
      · have hfalse : negative = false := by
          rw [← Bool.not_eq_true]
          exact fun hnegative => Int.not_lt.2 (h.2 hnegative) hneg
        rw [Text.integer, if_pos hneg, hfalse, decide_eq_true hneg]
        rfl
      · rw [Text.integer, if_neg hneg, decide_eq_false hneg, Bool.or_false]
    rw [signed, text, text, Text.integer_natCast, hcount]
  | join op left right ihleft ihright =>
    rw [signed, text, text, ihleft h.1, ihright h.2, isJoin_signed]

theorem signed_regular (h : e.Legible) : e.signed.Regular := by
  induction e with
  | constant value => trivial
  | dice count sides negative => exact ⟨Int.natCast_nonneg _, h.1⟩
  | join op left right ihleft ihright => exact ⟨ihleft h.1, ihright h.2⟩

/-- A legible expression is read as itself if it nowhere asks for fewer dice than none. -/
theorem signed_eq_iff (h : e.Legible) : e.signed = e ↔ e.Regular := by
  refine ⟨fun heq => heq ▸ signed_regular h, fun hregular => ?_⟩
  induction e with
  | constant value => rfl
  | dice count sides negative =>
    have hcount : (count.natAbs : Int) = count := Int.natAbs_of_nonneg hregular.1
    rw [signed, hcount, decide_eq_false (Int.not_lt.2 hregular.1), Bool.or_false]
  | join op left right ihleft ihright =>
    rw [signed, ihleft h.1 hregular.1, ihright h.2 hregular.2]

theorem Regular.legible (h : e.Regular) : e.Legible := by
  induction e with
  | constant value => trivial
  | dice count sides negative => exact ⟨h.2, fun _ => h.1⟩
  | join op left right ihleft ihright => exact ⟨ihleft h.1, ihright h.2⟩

/-- From the spelling of an expression this expression is read, with every minus in front of a
number of dice taken for the sign of the dice: `-1d6` is one die that counts negatively. From a
spelling that is not legible, such as `1d0` or `--1d6`, nothing is read. -/
theorem read_text_eq_ok_iff {found : Expr} {offset : Int} :
    Expr.read e.text offset = .ok found ↔ e.Legible ∧ found = e.signed := by
  have hread : e.Legible → Expr.read e.text offset = .ok e.signed := fun he => by
    rw [← text_signed he]
    exact read_text_of_regular (signed_regular he) offset
  constructor
  · intro h
    have hrun := (spells_of_scan (Expr.read_eq_ok_iff.1 h)).run_eq
    have he : e.Legible := by
      rcases legible_of_run hrun with hlast | ⟨-, he⟩
      · cases hlast
      · exact he
    exact ⟨he, Except.ok.inj (h.symm.trans (hread he))⟩
  · rintro ⟨he, rfl⟩
    exact hread he

end Expr

end RandomTables.Dice
