import RandomTables.Proofs.Dice.Grammar

/-!
# Texts that spell dice expressions are read

The reader takes up as much as it can at each step. The grammar leaves no choice either: behind a
term there are blanks, an operator, a closing parenthesis or the end, and none of these goes on with
a number or makes dice of it. So the reader finds whatever the grammar derives, and as it finds one
expression at most, no text spells two of them.
-/
namespace RandomTables.Dice

/-- What may stand behind a term: nothing that would go on with a number or make dice of it. -/
def Closes (rest : Text) : Prop :=
  ∀ c ∈ rest.head?, Text.isDigitSign c = false ∧ c ≠ .char 'd' ∧ c ≠ .char 'D'

theorem closes_of_allBlank_append {ws s : Text} (hws : Text.allBlank ws) (hs : Closes s) :
    Closes (ws ++ s) := by
  cases ws with
  | nil => exact hs
  | cons blank ws =>
    have hblank : Text.isBlank blank := Text.allBlank_iff.1 hws blank (List.mem_cons_self ..)
    intro c hc
    obtain rfl : blank = c := Option.some.inj hc
    refine ⟨?_, ?_, ?_⟩
    · rw [← Bool.not_eq_true]
      intro hsign
      rw [Text.isBlank_of_isDigitSign hsign] at hblank
      cases hblank
    · rintro rfl
      cases hblank
    · rintro rfl
      cases hblank

theorem closes_sign_cons (op : Operator) (s : Text) : Closes (op.sign :: s) := by
  intro c hc
  obtain rfl : op.sign = c := Option.some.inj hc
  cases op <;> decide +kernel

theorem closes_parenthesis_cons (s : Text) : Closes (.char ')' :: s) := by
  intro c hc
  obtain rfl : .char ')' = c := Option.some.inj hc
  decide +kernel

theorem closes_nil : Closes [] := nofun

/-! ## Numbers and groups of dice -/

theorem number_eq_none {s : Text} (h : ∀ c ∈ s.head?, Text.isDigitSign c = false) :
    number s = .ok (none, s) := by
  have hempty : ∀ c ∈ ([] : Text), Text.isDigitSign c := by simp
  have hrun : ([] ++ s).takeWhile Text.isDigitSign = [] := (Text.takeWhile_append hempty h).1
  rw [List.nil_append] at hrun
  rw [number, hrun]

/-- A number is read if the reader sees no digit sign behind it. -/
theorem number_eq_some {s rest : Text} {n : Nat} (h : Number s n rest)
    (hrest : ∀ c ∈ rest.head?, Text.isDigitSign c = false) : number s = .ok (some n, rest) := by
  cases h with
  | @run digits _ _ hdigits _ =>
    have hsigns : ∀ c ∈ digits, Text.isDigitSign c := fun c hc =>
      Text.isDigitSign_of_isDecimal (hdigits.isDecimal c hc)
    obtain ⟨htake, hdrop⟩ := Text.takeWhile_append hsigns hrest
    unfold number
    split
    · next hnil => exact absurd (htake.symm.trans hnil) hdigits.ne_nil
    · rw [htake, Text.numeral?_eq_some_iff.2 hdigits, hdrop]

theorem number_of_count {s u : Text} {letter : CodePoint} {count : Nat}
    (h : Count s count (letter :: u)) (hletter : Text.isDigitSign letter = false) :
    ∃ found, number s = .ok (found, letter :: u) ∧ found.getD 1 = count := by
  have hrest : ∀ c ∈ (letter :: u).head?, Text.isDigitSign c = false := by
    intro c hc
    obtain rfl : letter = c := Option.some.inj hc
    exact hletter
  cases h with
  | absent => exact ⟨none, number_eq_none hrest, rfl⟩
  | given hn => exact ⟨some count, number_eq_some hn hrest, rfl⟩

theorem unsigned_constant {negative : Bool} {s rest : Text} {n : Nat} (h : Number s n rest)
    (hrest : Closes rest) :
    unsigned negative s = .ok (.constant (if negative then -(n : Int) else n), rest) := by
  have hnumber := number_eq_some h fun c hc => (hrest c hc).1
  rw [unsigned, hnumber]
  dsimp only
  split
  · exact absurd rfl (hrest _ rfl).2.1
  · exact absurd rfl (hrest _ rfl).2.2
  · rfl

/-- Neither letter that may stand between the number of dice and the number of sides belongs to a
number. -/
theorem isDigitSign_of_letter {letter : CodePoint}
    (h : letter = .char 'd' ∨ letter = .char 'D') : Text.isDigitSign letter = false := by
  rcases h with rfl | rfl <;> decide +kernel

theorem unsigned_dice {negative : Bool} {s u rest : Text} {letter : CodePoint} {count sides : Nat}
    (hcount : Count s count (letter :: u)) (hletter : letter = .char 'd' ∨ letter = .char 'D')
    (hsides : Number u sides rest) (hpos : 0 < sides) (hrest : Closes rest) :
    unsigned negative s = .ok (.dice count sides negative, rest) := by
  obtain ⟨found, hfound, rfl⟩ := number_of_count hcount (isDigitSign_of_letter hletter)
  have hnumber := number_eq_some hsides fun c hc => (hrest c hc).1
  obtain ⟨more, rfl⟩ := Nat.exists_eq_succ_of_ne_zero (Nat.ne_of_gt hpos)
  rw [unsigned, hfound]
  rcases hletter with rfl | rfl
  · simp only [hnumber]
  · simp only [hnumber]

/-! ## Expressions -/

/-- The text starts with what is neither a blank nor a sign of a term. -/
def Opens (s : Text) : Prop :=
  ∃ c ∈ s.head?, Text.isBlank c = false ∧ c ≠ .char '(' ∧ c ≠ .char '-'

theorem opens_of_isDigitSign {c : CodePoint} {s : Text} (h : Text.isDigitSign c) :
    Opens (c :: s) :=
  ⟨c, rfl, Text.isBlank_of_isDigitSign h, Text.ne_of_isDigitSign h (by decide +kernel),
    Text.ne_of_isDigitSign h (by decide +kernel)⟩

theorem opens_of_number {s rest : Text} {n : Nat} (h : Number s n rest) : Opens s := by
  cases h with
  | @run digits _ _ hdigits _ =>
    cases digits with
    | nil => exact absurd rfl hdigits.ne_nil
    | cons c digits =>
      have hdecimal := hdigits.isDecimal c (List.mem_cons_self ..)
      exact opens_of_isDigitSign (Text.isDigitSign_of_isDecimal hdecimal)

theorem opens_of_count {s u : Text} {letter : CodePoint} {count : Nat}
    (h : Count s count (letter :: u)) (hletter : letter = .char 'd' ∨ letter = .char 'D') :
    Opens s := by
  cases h with
  | absent =>
    refine ⟨letter, rfl, ?_⟩
    rcases hletter with rfl | rfl <;> decide
  | given hn => exact opens_of_number hn

theorem trimStart_of_opens {s : Text} (h : Opens s) : Text.trimStart s = s := by
  obtain ⟨c, hc, hblank, _⟩ := h
  cases s with
  | nil => cases hc
  | cons first rest =>
    obtain rfl : first = c := Option.some.inj hc
    exact Text.trimStart_cons_of_not_isBlank hblank

/-- A step that succeeds hands back a rest within its bound. -/
theorem exists_of_map_eq_ok {α : Type} {P : α → Prop} {step : Except Stop { a : α // P a }} {a : α}
    (h : step.map Subtype.val = .ok a) : ∃ ha, step = .ok ⟨a, ha⟩ := by
  cases step with
  | error stop => cases h
  | ok found =>
    obtain rfl := Except.ok.inj h
    exact ⟨found.2, rfl⟩

theorem term_eq_of_opens {s : Text} (h : Opens (Text.trimStart s)) :
    (term s).map Subtype.val = unsigned false (Text.trimStart s) := by
  obtain ⟨c, hc, _, hopen, hminus⟩ := h
  rw [term]
  split
  · next hs =>
    rw [hs] at hc
    cases hc
  · next hs =>
    rw [hs] at hc
    exact absurd (Option.some.inj hc).symm hopen
  · next hs =>
    rw [hs] at hc
    exact absurd (Option.some.inj hc).symm hminus
  · split
    · next hstop => exact hstop.symm
    · next hok => exact hok.symm

theorem term_eq_of_minus {s rest : Text} (h : Text.trimStart s = .char '-' :: rest) :
    (term s).map Subtype.val = unsigned true (Text.trimStart rest) := by
  rw [term]
  split
  · next hs => cases h.symm.trans hs
  · next hs => cases h.symm.trans hs
  · next after hs =>
    obtain rfl : rest = after := (List.cons.inj (h.symm.trans hs)).2
    split
    · next hstop => exact hstop.symm
    · next hok => exact hok.symm
  · next hminus => exact absurd h (hminus rest)

theorem term_of_sign {s t rest : Text} {negative : Bool} {e : Expr} (hsign : Sign s negative t)
    (ht : Opens t) (h : unsigned negative t = .ok (e, rest)) :
    (term s).map Subtype.val = .ok (e, rest) := by
  have htrim := trimStart_of_opens ht
  cases hsign with
  | plus hws =>
    rw [← htrim, ← Text.trimStart_append hws] at ht
    rw [term_eq_of_opens ht, Text.trimStart_append hws, htrim, h]
  | @minus _ ws' _ hws hws' =>
    have hminus := Text.trimStart_append_cons hws (c := .char '-') rfl (ws' ++ t)
    rw [term_eq_of_minus hminus, Text.trimStart_append hws', htrim, h]

theorem term_of_parentheses {s rest after closed : Text} {e : Expr}
    (h : Text.trimStart s = .char '(' :: rest)
    (hinner : (expression rest).map Subtype.val = .ok (e, after))
    (hclose : Text.trimStart after = .char ')' :: closed) :
    (term s).map Subtype.val = .ok (e, closed) := by
  obtain ⟨_, hexpression⟩ := exists_of_map_eq_ok hinner
  rw [term]
  split
  · next hs => cases h.symm.trans hs
  · next rest' hs =>
    obtain rfl : rest = rest' := (List.cons.inj (h.symm.trans hs)).2
    rw [hexpression]
    dsimp only
    split
    · next hclosed =>
      obtain rfl := (List.cons.inj (hclose.symm.trans hclosed)).2
      rfl
    · next hopen => exact absurd hclose (hopen _)
  · next hs => cases h.symm.trans hs
  · next hopen _ => exact absurd h (hopen rest)

theorem expression_eq_operators {s rest : Text} {left : Expr}
    (h : (term s).map Subtype.val = .ok (left, rest)) :
    (expression s).map Subtype.val = (operators left rest).map Subtype.val := by
  obtain ⟨_, hterm⟩ := exists_of_map_eq_ok h
  rw [expression, hterm]
  dsimp only
  cases operators left rest <;> rfl

theorem operators_eq_operators {s rest after : Text} {op : Operator} {left right : Expr}
    (h : Text.trimStart s = op.sign :: rest)
    (hright : (term rest).map Subtype.val = .ok (right, after)) :
    (operators left s).map Subtype.val =
      (operators (.join op left right) after).map Subtype.val := by
  obtain ⟨_, hterm⟩ := exists_of_map_eq_ok hright
  rw [operators]
  split
  · next hs => cases h.symm.trans hs
  · next c rest' hs =>
    obtain ⟨rfl, rfl⟩ := List.cons.inj (h.symm.trans hs)
    simp only [Operator.ofSign?_sign, hterm]
    cases operators (.join op left right) after <;> rfl

theorem operators_eq_ok {s : Text} {left : Expr}
    (h : ∀ c ∈ (Text.trimStart s).head?, Operator.ofSign? c = none) :
    (operators left s).map Subtype.val = .ok (left, Text.trimStart s) := by
  rw [operators]
  split
  · next hs =>
    rw [hs]
    rfl
  · next c rest hs =>
    split
    · exact congrArg (fun unread => Except.ok (left, unread)) hs.symm
    · next hsome =>
      rw [hs] at h
      rw [h c rfl] at hsome
      cases hsome

mutual

/-- A term is read if the reader finds the end of it. -/
theorem term_eq_ok {s rest : Text} {e : Expr} (hrest : Closes rest) :
    Term s e rest → (term s).map Subtype.val = .ok (e, rest)
  | @Term.parentheses _ _ ws' _ _ hws hinner hws' => by
    have hcloses := closes_of_allBlank_append hws' (closes_parenthesis_cons rest)
    have htrim : Text.trimStart (ws' ++ .char ')' :: rest) = .char ')' :: rest :=
      Text.trimStart_append_cons hws' rfl _
    have hnone : ∀ c ∈ (Text.trimStart (ws' ++ .char ')' :: rest)).head?,
        Operator.ofSign? c = none := by
      intro c hc
      rw [htrim] at hc
      obtain rfl : .char ')' = c := Option.some.inj hc
      rfl
    have hexpression := (expression_eq_of_joined hcloses hinner).trans (operators_eq_ok hnone)
    rw [htrim] at hexpression
    exact term_of_parentheses (Text.trimStart_append_cons hws rfl _) hexpression
      (Text.trimStart_cons_of_not_isBlank rfl)
  | .constant hsign hn => term_of_sign hsign (opens_of_number hn) (unsigned_constant hn hrest)
  | .dice hsign hcount hletter hsides hpos =>
    term_of_sign hsign (opens_of_count hcount hletter)
      (unsigned_dice hcount hletter hsides hpos hrest)

/-- When the terms of an expression have been read, the reader goes on behind them. -/
theorem expression_eq_of_joined {s rest : Text} {e : Expr} (hrest : Closes rest) :
    Joined s e rest → (expression s).map Subtype.val = (operators e rest).map Subtype.val
  | .term h => expression_eq_operators (term_eq_ok hrest h)
  | @Joined.join _ ws t _ op _ _ hleft hws hright => by
    have hcloses := closes_of_allBlank_append hws (closes_sign_cons op t)
    have htrim : Text.trimStart (ws ++ op.sign :: t) = op.sign :: t :=
      Text.trimStart_append_cons hws (by cases op <;> rfl) t
    rw [expression_eq_of_joined hcloses hleft]
    exact operators_eq_operators htrim (term_eq_ok hrest hright)

end

/-! ## Whole texts -/

theorem Sign.trimStart {s t : Text} {negative : Bool} (h : Sign s negative t) (ht : Opens t) :
    Sign (Text.trimStart s) negative t := by
  cases h with
  | plus hws =>
    rw [Text.trimStart_append hws, trimStart_of_opens ht]
    exact .plus Text.allBlank_nil
  | minus hws hws' =>
    rw [Text.trimStart_append_cons hws rfl]
    exact .minus Text.allBlank_nil hws'

theorem Term.trimStart {s rest : Text} {e : Expr} (h : Term s e rest) :
    Term (Text.trimStart s) e rest := by
  cases h with
  | parentheses hws hinner hws' =>
    rw [Text.trimStart_append_cons hws rfl]
    exact .parentheses Text.allBlank_nil hinner hws'
  | constant hsign hn => exact .constant (hsign.trimStart (opens_of_number hn)) hn
  | dice hsign hcount hletter hsides hpos =>
    exact .dice (hsign.trimStart (opens_of_count hcount hletter)) hcount hletter hsides hpos

/-- Blanks in front of an expression make no difference. -/
theorem Joined.trimStart {s rest : Text} {e : Expr} :
    Joined s e rest → Joined (Text.trimStart s) e rest
  | .term h => .term h.trimStart
  | .join hleft hws hright => .join hleft.trimStart hws hright

theorem scan_of_spells {s : Text} {e : Expr} (h : Spells s e) : Expr.scan s = .ok e := by
  cases h with
  | @mk ws t ws' _ hws hjoined hws' =>
    have htrim : Text.trimStart (ws ++ t) = Text.trimStart t := Text.trimStart_append hws t
    have hend : Text.trimStart ws' = [] := Text.trimStart_of_allBlank hws'
    have hcloses : Closes ws' := List.append_nil ws' ▸ closes_of_allBlank_append hws' closes_nil
    have hnone : ∀ c ∈ (Text.trimStart ws').head?, Operator.ofSign? c = none := by
      rw [hend]
      exact nofun
    have hexpression :=
      (expression_eq_of_joined hcloses hjoined.trimStart).trans (operators_eq_ok hnone)
    rw [hend, ← htrim] at hexpression
    obtain ⟨hlt, hfound⟩ := exists_of_map_eq_ok hexpression
    unfold Expr.scan
    split
    · next hnil =>
      rw [hnil] at hlt
      cases hlt
    · rw [hfound]
      rfl

/-- The reader accepts exactly the texts that spell an expression, with the tree that the grammar
gives them. -/
theorem Expr.read_iff_spells (s : Text) (offset : Int) (e : Expr) :
    Expr.read s offset = .ok e ↔ Spells s e :=
  Expr.read_eq_ok_iff.trans ⟨spells_of_scan, scan_of_spells⟩

end RandomTables.Dice
