import RandomTables.Dice.Reader
import RandomTables.Proofs.Text.Numeral

/-!
# The grammar of dice expressions

The grammar says which texts spell a dice expression, and which one, without saying how to read
them. A part of it is given by what stands from some place on and by what is left behind the part,
so that a number can be said to end where no further digit follows.

Whatever the reader finds is derived by the grammar. The reader takes up blanks behind an expression
where the grammar leaves them, so both agree up to these.
-/
namespace RandomTables.Dice

/-! ## The grammar -/

/-- A run of decimal digits to which no further digit belongs, the number that it denotes, and the
rest. -/
inductive Number : Text → Nat → Text → Prop
  | run {digits rest : Text} {n : Nat} (h : Text.Denotes digits n)
    (hend : ∀ c ∈ rest.head?, Text.isDecimal c = false) : Number (digits ++ rest) n rest

/-- Blanks, and a minus with blanks behind it or none. -/
inductive Sign : Text → Bool → Text → Prop
  | plus {ws s : Text} (hws : Text.allBlank ws) : Sign (ws ++ s) false s
  | minus {ws ws' s : Text} (hws : Text.allBlank ws) (hws' : Text.allBlank ws') :
    Sign (ws ++ .char '-' :: (ws' ++ s)) true s

/-- How many dice there are: one, if it is not said. -/
inductive Count : Text → Nat → Text → Prop
  | absent {s : Text} : Count s 1 s
  | given {s rest : Text} {n : Nat} (h : Number s n rest) : Count s n rest

mutual

/-- An expression in parentheses, a number with its sign, or dice with their sign. -/
inductive Term : Text → Expr → Text → Prop
  | parentheses {ws s ws' rest : Text} {e : Expr} (hws : Text.allBlank ws)
    (hinner : Joined s e (ws' ++ .char ')' :: rest)) (hws' : Text.allBlank ws') :
    Term (ws ++ .char '(' :: s) e rest
  | constant {s t rest : Text} {negative : Bool} {n : Nat} (hsign : Sign s negative t)
    (hn : Number t n rest) : Term s (.constant (if negative then -(n : Int) else n)) rest
  | dice {s t u rest : Text} {letter : CodePoint} {negative : Bool} {count sides : Nat}
    (hsign : Sign s negative t) (hcount : Count t count (letter :: u))
    (hletter : letter = .char 'd' ∨ letter = .char 'D') (hsides : Number u sides rest)
    (hpos : 0 < sides) : Term s (.dice count sides negative) rest

/-- Terms with operators between them, joined from the left. -/
inductive Joined : Text → Expr → Text → Prop
  | term {s rest : Text} {e : Expr} (h : Term s e rest) : Joined s e rest
  | join {s ws t rest : Text} {op : Operator} {left right : Expr}
    (hleft : Joined s left (ws ++ op.sign :: t)) (hws : Text.allBlank ws)
    (hright : Term t right rest) : Joined s (.join op left right) rest

end

/-- The whole text spells an expression, with or without blanks around it. -/
inductive Spells : Text → Expr → Prop
  | mk {ws s ws' : Text} {e : Expr} (hws : Text.allBlank ws) (h : Joined s e ws')
    (hws' : Text.allBlank ws') : Spells (ws ++ s) e

/-! ## What is read is derived -/

theorem Operator.eq_sign_of_ofSign? {c : CodePoint} {op : Operator}
    (h : Operator.ofSign? c = some op) : c = op.sign := by
  unfold Operator.ofSign? at h
  split at h
  case h_1 | h_2 | h_3 =>
    obtain rfl := Option.some.inj h
    rfl
  case h_4 => cases h

/-- A run of digit signs that the reader takes for a number has decimal digits only, and it ends
where no digit follows. -/
theorem number_of_eq_ok {s rest : Text} {n : Nat} (h : number s = .ok (some n, rest)) :
    Number s n rest := by
  unfold number at h
  split at h
  · cases h
  · next run hrun =>
    split at h
    · cases h
    · next m hm =>
      obtain ⟨hn, rfl⟩ := Prod.mk.inj (Except.ok.inj h)
      obtain rfl := Option.some.inj hn
      have hsplit := List.takeWhile_append_dropWhile (p := Text.isDigitSign) (l := s)
      have hnumber : Number (s.takeWhile Text.isDigitSign ++ s.dropWhile Text.isDigitSign) m
          (s.dropWhile Text.isDigitSign) := by
        refine .run (Text.numeral?_eq_some_iff.1 hm) fun c hc => ?_
        have hsign := List.head?_dropWhile_not Text.isDigitSign s
        rw [Option.mem_def.1 hc] at hsign
        exact Text.isDecimal_of_not_isDigitSign (by simpa using hsign)
      rwa [hsplit] at hnumber

theorem eq_of_number_eq_none {s rest : Text} (h : number s = .ok (none, rest)) : rest = s := by
  unfold number at h
  split at h
  · exact (Prod.mk.inj (Except.ok.inj h)).2.symm
  · split at h
    · cases h
    · cases h

theorem count_of_eq_ok {s rest : Text} {count : Option Nat} (h : number s = .ok (count, rest)) :
    Count s (count.getD 1) rest := by
  cases count with
  | none =>
    obtain rfl := eq_of_number_eq_none h
    exact .absent
  | some n => exact .given (number_of_eq_ok h)

theorem term_of_unsigned {negative : Bool} {s t rest : Text} {e : Expr} (hsign : Sign s negative t)
    (h : unsigned negative t = .ok (e, rest)) : Term s e rest := by
  unfold unsigned at h
  split at h
  · cases h
  · next count mid hcount =>
    have hcounted := count_of_eq_ok hcount
    dsimp only at h
    split at h
    case h_1 | h_2 =>
      -- After either letter the number of sides is read.
      split at h
      · cases h
      · cases h
      · cases h
      · next sides after hpos hsides =>
        obtain ⟨rfl, rfl⟩ := Prod.mk.inj (Except.ok.inj h)
        refine .dice hsign hcounted (by simp) (number_of_eq_ok hsides) ?_
        exact Nat.pos_of_ne_zero fun hzero => hpos hzero
    case h_3 =>
      split at h
      · cases h
      · next n =>
        obtain ⟨rfl, rfl⟩ := Prod.mk.inj (Except.ok.inj h)
        exact .constant hsign (number_of_eq_ok hcount)

mutual

/-- The reader takes up the blanks behind an expression too. -/
theorem joined_of_expression (s : Text) {e : Expr} {rest : Text}
    (h : (expression s).map Subtype.val = .ok (e, rest)) :
    ∃ ws, Text.allBlank ws ∧ Joined s e (ws ++ rest) := by
  rw [expression] at h
  split at h
  · cases h
  · next left after hlt hterm =>
    have hleft := term_of_term s (congrArg (Except.map Subtype.val) hterm)
    split at h
    · cases h
    · next p hle hoperators =>
      obtain rfl := Except.ok.inj h
      exact joined_of_operators s after (.term hleft) hlt
        (congrArg (Except.map Subtype.val) hoperators)
termination_by (s.length, 1)

theorem joined_of_operators {left : Expr} (start s : Text) (hleft : Joined start left s)
    (hlt : s.length < start.length) {e : Expr} {rest : Text}
    (h : (operators left s).map Subtype.val = .ok (e, rest)) :
    ∃ ws, Text.allBlank ws ∧ Joined start e (ws ++ rest) := by
  obtain ⟨ws, hws, hsplit⟩ := Text.exists_allBlank_append s
  rw [operators] at h
  split at h
  · next hend =>
    obtain ⟨rfl, rfl⟩ := Prod.mk.inj (Except.ok.inj h)
    rw [hend] at hsplit
    exact ⟨ws, hws, hsplit ▸ hleft⟩
  · next c after hafter =>
    have hshort := Text.length_lt_of_trimStart_eq_cons hafter
    rw [hafter] at hsplit
    split at h
    · obtain ⟨rfl, rfl⟩ := Prod.mk.inj (Except.ok.inj h)
      exact ⟨ws, hws, hsplit ▸ hleft⟩
    · next op hop =>
      obtain rfl := Operator.eq_sign_of_ofSign? hop
      split at h
      · cases h
      · next right last hlast hterm =>
        have hlast : last.length < after.length := hlast
        have hright := term_of_term after (congrArg (Except.map Subtype.val) hterm)
        have hjoined : Joined start (.join op left right) last :=
          .join (hsplit ▸ hleft) hws hright
        split at h
        · cases h
        · next p hle hoperators =>
          obtain rfl := Except.ok.inj h
          exact joined_of_operators start last hjoined (by omega)
            (congrArg (Except.map Subtype.val) hoperators)
termination_by (s.length, 0)

theorem term_of_term (s : Text) {e : Expr} {rest : Text}
    (h : (term s).map Subtype.val = .ok (e, rest)) : Term s e rest := by
  obtain ⟨ws, hws, hsplit⟩ := Text.exists_allBlank_append s
  rw [term] at h
  split at h
  · cases h
  · next after hafter =>
    have hlt := Text.length_lt_of_trimStart_eq_cons hafter
    rw [hafter] at hsplit
    split at h
    · cases h
    · next inner last hlast hexpression =>
      obtain ⟨ws₁, hws₁, hinner⟩ :=
        joined_of_expression after (congrArg (Except.map Subtype.val) hexpression)
      obtain ⟨ws₂, hws₂, hclose⟩ := Text.exists_allBlank_append last
      split at h
      · next closed hclosed =>
        obtain ⟨rfl, rfl⟩ := Prod.mk.inj (Except.ok.inj h)
        rw [hclosed] at hclose
        rw [hclose, ← List.append_assoc] at hinner
        rw [hsplit]
        exact .parentheses hws hinner (Text.allBlank_append hws₁ hws₂)
      · cases h
  · next after hafter =>
    obtain ⟨ws', hws', hafter'⟩ := Text.exists_allBlank_append after
    rw [hafter, hafter'] at hsplit
    have hsign : Sign s true (Text.trimStart after) := by
      rw [hsplit]
      exact .minus hws hws'
    split at h
    · cases h
    · next hunsigned =>
      obtain ⟨rfl, rfl⟩ := Prod.mk.inj (Except.ok.inj h)
      exact term_of_unsigned hsign hunsigned
  · have hsign : Sign (ws ++ Text.trimStart s) false (Text.trimStart s) := .plus hws
    rw [← hsplit] at hsign
    split at h
    · cases h
    · next hunsigned =>
      obtain ⟨rfl, rfl⟩ := Prod.mk.inj (Except.ok.inj h)
      exact term_of_unsigned hsign hunsigned
termination_by (s.length, 0)

end

/-! ## Whole texts -/

/-- Where a text starts has no influence on what it spells. -/
theorem Expr.read_eq_ok_iff {s : Text} {offset : Int} {e : Expr} :
    Expr.read s offset = .ok e ↔ Expr.scan s = .ok e := by
  unfold Expr.read
  cases Expr.scan s with
  | ok found => simp
  | error stop => cases stop <;> simp

theorem spells_of_scan {s : Text} {e : Expr} (h : Expr.scan s = .ok e) : Spells s e := by
  obtain ⟨ws, hws, hsplit⟩ := Text.exists_allBlank_append s
  unfold Expr.scan at h
  split at h
  · cases h
  · split at h
    · cases h
    · next found rest hlt hexpression =>
      obtain ⟨ws₁, hws₁, hjoined⟩ :=
        joined_of_expression _ (congrArg (Except.map Subtype.val) hexpression)
      obtain ⟨ws₂, hws₂, hrest⟩ := Text.exists_allBlank_append rest
      split at h
      · next hend =>
        obtain rfl := Except.ok.inj h
        rw [hend, List.append_nil] at hrest
        rw [hsplit]
        exact .mk hws hjoined (Text.allBlank_append hws₁ (hrest ▸ hws₂))
      · cases h

end RandomTables.Dice
