import RandomTables.Proofs.Dice.Accepted
import RandomTables.Proofs.Dice.Sides

/-!
# The spelling of dice expressions

An expression is spelled with parentheses around a right operand that is itself joined, and nowhere
else. As the grammar joins from the left, this spells the expression and no other one, also where a
minus follows an operator because a number or a group of dice is negative.
-/
namespace RandomTables.Dice

/-- The spelling of a number stands for it unless a further digit follows. -/
theorem number_natural (n : Nat) {rest : Text} (h : ∀ c ∈ rest.head?, Text.isDecimal c = false) :
    Number (Text.natural n ++ rest) n rest :=
  .run (Text.denotes_natural n) h

theorem sign_minus (negative : Bool) (s : Text) :
    Sign ((if negative then "-" else "") ++ s) negative s := by
  cases negative with
  | true => exact .minus Text.allBlank_nil Text.allBlank_nil
  | false => exact .plus Text.allBlank_nil

theorem term_integer (value : Int) {rest : Text} (h : ∀ c ∈ rest.head?, Text.isDecimal c = false) :
    Term (Text.integer value ++ rest) (.constant value) rest := by
  have hsign := sign_minus (decide (value < 0)) (Text.natural value.natAbs ++ rest)
  have hterm := Term.constant hsign (number_natural value.natAbs h)
  by_cases hneg : value < 0
  · have hvalue : -(value.natAbs : Int) = value := by omega
    simp only [hneg, decide_true, if_true, hvalue] at hterm
    rwa [Text.integer, if_pos hneg]
  · have hvalue : (value.natAbs : Int) = value := by omega
    simp only [hneg, decide_false, hvalue] at hterm
    rwa [Text.integer, if_neg hneg]

theorem term_dice {count sides : Int} {negative : Bool}
    (hregular : (Expr.dice count sides negative).Regular) {rest : Text}
    (h : ∀ c ∈ rest.head?, Text.isDecimal c = false) :
    Term ((Expr.dice count sides negative).text ++ rest) (.dice count sides negative) rest := by
  obtain ⟨hcount, hpos⟩ := hregular
  obtain ⟨count, rfl⟩ := Int.eq_ofNat_of_zero_le hcount
  obtain ⟨sides, rfl⟩ := Int.eq_ofNat_of_zero_le (Int.le_of_lt hpos)
  have hletter : ∀ c ∈ (CodePoint.char 'd' :: (Text.natural sides ++ rest)).head?,
      Text.isDecimal c = false := by
    intro c hc
    obtain rfl : .char 'd' = c := Option.some.inj hc
    decide +kernel
  have hterm := Term.dice (sign_minus negative _) (.given (number_natural count hletter)) (.inl rfl)
    (number_natural sides h) (Int.natCast_pos.1 hpos)
  have htext : (Expr.dice count sides negative).text ++ rest =
      (if negative then "-" else "") ++
        (Text.natural count ++ .char 'd' :: (Text.natural sides ++ rest)) := by
    simp only [Expr.text, Text.integer_natCast, List.append_assoc]
    rfl
  rwa [htext]

/-- What is joined of terms but is not itself joined is a term. -/
theorem Joined.term_of_isJoin {s rest : Text} {e : Expr} (h : Joined s e rest)
    (he : e.isJoin = false) : Term s e rest := by
  cases h with
  | term h => exact h
  | join _ _ _ => cases he

/-- A regular expression is derived from its spelling. -/
theorem joined_text {e : Expr} (he : e.Regular) {rest : Text}
    (h : ∀ c ∈ rest.head?, Text.isDecimal c = false) : Joined (e.text ++ rest) e rest := by
  induction e generalizing rest with
  | constant value => exact .term (term_integer value h)
  | dice count sides negative => exact .term (term_dice he h)
  | join op left right ihleft ihright =>
    obtain ⟨hleft, hright⟩ := he
    have hsign : ∀ s, ∀ c ∈ (op.sign :: s).head?, Text.isDecimal c = false := fun s c hc =>
      Text.isDecimal_of_not_isDigitSign (closes_sign_cons op s c hc).1
    have hclosing : ∀ c ∈ (CodePoint.char ')' :: rest).head?, Text.isDecimal c = false :=
      fun c hc => Text.isDecimal_of_not_isDigitSign (closes_parenthesis_cons rest c hc).1
    have hoperand : Term ((if right.isJoin then "(" ++ right.text ++ ")" else right.text) ++ rest)
        right rest := by
      cases hjoin : right.isJoin with
      | true =>
        have hinner : Joined _ right ([] ++ .char ')' :: rest) := ihright hright hclosing
        have htext : ("(" ++ right.text ++ ")" : Text) ++ rest =
            .char '(' :: (right.text ++ .char ')' :: rest) := by
          simp only [List.append_assoc]
          rfl
        rw [if_pos rfl, htext]
        exact .parentheses Text.allBlank_nil hinner Text.allBlank_nil
      | false => exact (ihright hright h).term_of_isJoin hjoin
    have hjoined := Joined.join (ihleft hleft (hsign _)) Text.allBlank_nil hoperand
    rw [Expr.text, List.append_assoc]
    exact hjoined

theorem spells_text {e : Expr} (he : e.Regular) : Spells e.text e := by
  have hjoined : Joined (e.text ++ []) e [] := joined_text he nofun
  rw [List.append_nil] at hjoined
  exact .mk Text.allBlank_nil hjoined Text.allBlank_nil

theorem Expr.read_text_of_regular {e : Expr} (he : e.Regular) (offset : Int) :
    Expr.read e.text offset = .ok e :=
  read_eq_ok_iff.2 (scan_of_spells (spells_text he))

/-- The spelling of an expression is read as this expression exactly if every die of it has sides
and it nowhere asks for fewer dice than none. Whatever was read from any text is read again from its
spelling. -/
theorem Expr.read_text (e : Expr) (offset : Int) :
    (Expr.read e.text offset = .ok e ↔ e.Regular) ∧
      ∀ s start, Expr.read s start = .ok e → Expr.read e.text offset = .ok e :=
  ⟨⟨read_regular, fun he => read_text_of_regular he offset⟩,
    fun _ _ h => read_text_of_regular (read_regular h) offset⟩

/-- In one spelling a minus stands for an operator, for the sign of a number and for the sign of
dice. What is read from it at one place is read from it at every other one. -/
theorem Expr.read_text_minus :
    ∃ e : Expr, e.text = "-3--0d1-(2*-1d4-5)" ∧ e.Regular ∧ Expr.read e.text 7 = .ok e ∧
      Expr.read e.text 0 = .ok e := by
  let e : Expr := .join .sub (.join .sub (.constant (-3)) (.dice 0 1 true))
    (.join .sub (.join .mul (.constant 2) (.dice 1 4 true)) (.constant 5))
  have hregular : e.Regular := by decide
  have hread := (read_text e 7).1.2 hregular
  exact ⟨e, by decide +kernel, hregular, hread, (read_text e 0).2 _ 7 hread⟩

end RandomTables.Dice
