import RandomTables.Dice.Expr
import RandomTables.Text.Digit
import RandomTables.Text.Quoted

/-!
# Reading dice expressions

An expression is a term followed by any number of operators with their terms; a term is an
expression in parentheses, a number, or dice, the last two with an optional minus. Blanks may stand
before every term and operator and after a minus, but not inside a dice term. The reader works on
the unread rest of the text: each step hands back a shorter rest, and a fault is placed by how much
is left unread.

Numbers may have any number of digits, and terms may be nested to any depth: limits that the machine
sets on the digits of a number or on nested calls are left out, here and wherever texts are read.
-/
namespace RandomTables.Dice

/-- What is wrong with the text of a dice expression. -/
inductive Fault where
  | emptyExpression
  | missingOperand
  | unexpected (found : CodePoint)
  | openParenthesis
  | missingSides
  | noSides
  deriving Repr, DecidableEq, Inhabited

def Fault.message : Fault → Text
  | emptyExpression => "empty expression"
  | missingOperand => "missing operand"
  | unexpected found => "unexpected " ++ Text.quoted [found] ++ " after expression"
  | openParenthesis => "unterminated parenthesis"
  | missingSides => "missing die size after 'd'"
  | noSides => "die size must be positive"

/-- Why reading stopped: a fault before the last `unread` characters, or a run of digit signs that
denotes no number. -/
inductive Stop where
  | fault (cause : Fault) (unread : Nat)
  | numeral (run : Text)
  deriving Repr, DecidableEq

/-- Why a text is no dice expression: a fault at a position, or a run of digit signs that denotes no
number. -/
inductive ReadError where
  | malformed (position : Int) (fault : Fault)
  | numeral (run : Text)
  deriving Repr, DecidableEq, Inhabited

/-- The wording for a run of digit signs that denotes no number. Of the run no more is shown than
two hundred signs. -/
def numeralMessage (run : Text) : Text :=
  "invalid literal for int() with base 10: " ++ (Text.quoted run).take 200

/-- A wording with the position it points at. -/
def atPosition (wording : Text) (position : Int) : Text :=
  wording ++ " (at position " ++ Text.integer position ++ ")"

def ReadError.message : ReadError → Text
  | malformed position fault => atPosition fault.message position
  | numeral run => numeralMessage run

/-- An expression and the text after it, which is shorter than `s`. -/
abbrev Parsed (s : Text) : Type := { p : Expr × Text // p.2.length < s.length }

/-- The number that the text starts with, if it starts with a digit sign, and the rest. -/
def number (s : Text) : Except Stop (Option Nat × Text) :=
  match s.takeWhile Text.isDigitSign with
  | [] => .ok (none, s)
  | run =>
    match Text.numeral? run with
    | none => .error (.numeral run)
    | some n => .ok (some n, s.dropWhile Text.isDigitSign)

/-- A number or a group of dice, after its sign. -/
def unsigned (negative : Bool) (s : Text) : Except Stop (Expr × Text) :=
  match number s with
  | .error stop => .error stop
  | .ok (count, rest) =>
    let sized (rest : Text) : Except Stop (Expr × Text) :=
      match number rest with
      | .error stop => .error stop
      | .ok (none, rest) => .error (.fault .missingSides rest.length)
      | .ok (some 0, rest) => .error (.fault .noSides rest.length)
      | .ok (some sides, rest) => .ok (.dice (count.getD 1) sides negative, rest)
    match rest with
    | .char 'd' :: rest => sized rest
    | .char 'D' :: rest => sized rest
    | rest =>
      match count with
      | none => .error (.fault .missingOperand rest.length)
      | some n => .ok (.constant (if negative then -(n : Int) else n), rest)

theorem number_rest_length {s rest : Text} {n : Option Nat} (h : number s = .ok (n, rest)) :
    rest.length ≤ s.length ∧ (n.isSome → rest.length < s.length) := by
  unfold number at h
  split at h
  · simp only [Except.ok.injEq, Prod.mk.injEq] at h
    obtain ⟨rfl, rfl⟩ := h
    simp
  · next run hrun =>
    split at h
    · simp at h
    · simp only [Except.ok.injEq, Prod.mk.injEq] at h
      obtain ⟨rfl, rfl⟩ := h
      have hsplit := congrArg List.length
        (List.takeWhile_append_dropWhile (p := Text.isDigitSign) (l := s))
      have : (s.takeWhile Text.isDigitSign).length ≠ 0 := by
        intro h0
        exact hrun (List.eq_nil_of_length_eq_zero h0)
      simp only [List.length_append] at hsplit
      exact ⟨by omega, fun _ => by omega⟩

theorem unsigned_rest_length {negative : Bool} {s rest : Text} {e : Expr}
    (h : unsigned negative s = .ok (e, rest)) : rest.length < s.length := by
  unfold unsigned at h
  split at h
  · simp at h
  · next count mid hmid =>
    have hlen := number_rest_length hmid
    have sized : ∀ r : Text, r.length < mid.length →
        (match number r with
          | .error stop => (.error stop : Except Stop (Expr × Text))
          | .ok (none, rest) => .error (.fault .missingSides rest.length)
          | .ok (some 0, rest) => .error (.fault .noSides rest.length)
          | .ok (some sides, rest) => .ok (.dice (count.getD 1) sides negative, rest)) =
            .ok (e, rest) → rest.length < mid.length := by
      intro r hr hok
      split at hok <;> simp at hok
      next hn =>
        have := (number_rest_length hn).1
        obtain ⟨-, rfl⟩ := hok
        omega
    dsimp only at h
    split at h
    · have := sized _ (by simp) h; omega
    · have := sized _ (by simp) h; omega
    · split at h
      · simp at h
      · simp only [Except.ok.injEq, Prod.mk.injEq] at h
        obtain ⟨-, rfl⟩ := h
        exact hlen.2 rfl

mutual

/-- A term and the operators after it. -/
def expression (s : Text) : Except Stop (Parsed s) :=
  match term s with
  | .error stop => .error stop
  | .ok ⟨(left, rest), h⟩ =>
    match operators left rest with
    | .error stop => .error stop
    | .ok ⟨p, hp⟩ => .ok ⟨p, Nat.lt_of_le_of_lt hp h⟩
termination_by (s.length, 1)

/-- The operators and terms that follow `left`, joined to it from the left. -/
def operators (left : Expr) (s : Text) :
    Except Stop { p : Expr × Text // p.2.length ≤ s.length } :=
  match h : Text.trimStart s with
  | [] => .ok ⟨(left, []), Nat.zero_le _⟩
  | c :: rest =>
    have hs := Text.length_lt_of_trimStart_eq_cons h
    match Operator.ofSign? c with
    | none => .ok ⟨(left, c :: rest), hs⟩
    | some op =>
      match term rest with
      | .error stop => .error stop
      | .ok ⟨(right, after), hr⟩ =>
        have hr : after.length < rest.length := hr
        match operators (.join op left right) after with
        | .error stop => .error stop
        | .ok ⟨p, hp⟩ => .ok ⟨p, by omega⟩
termination_by (s.length, 0)

/-- An expression in parentheses, a number, or a group of dice. -/
def term (s : Text) : Except Stop (Parsed s) :=
  match h : Text.trimStart s with
  | [] => .error (.fault .missingOperand 0)
  | .char '(' :: rest =>
    have hs := Text.length_lt_of_trimStart_eq_cons h
    match expression rest with
    | .error stop => .error stop
    | .ok ⟨(inner, after), ha⟩ =>
      have ha : after.length < rest.length := ha
      match hc : Text.trimStart after with
      | .char ')' :: rest =>
        have := Text.length_lt_of_trimStart_eq_cons hc
        .ok ⟨(inner, rest), show rest.length < s.length by omega⟩
      | rest => .error (.fault .openParenthesis rest.length)
  | .char '-' :: rest =>
    match hu : unsigned true (Text.trimStart rest) with
    | .error stop => .error stop
    | .ok (e, after) =>
      have h1 := unsigned_rest_length hu
      have h2 := Text.length_trimStart_le rest
      have h3 := Text.length_lt_of_trimStart_eq_cons h
      .ok ⟨(e, after), show after.length < s.length by omega⟩
  | rest =>
    match hu : unsigned false rest with
    | .error stop => .error stop
    | .ok (e, after) =>
      have h1 := unsigned_rest_length hu
      have h2 : rest.length ≤ s.length := h ▸ Text.length_trimStart_le s
      .ok ⟨(e, after), show after.length < s.length by omega⟩
termination_by (s.length, 0)

end

/-- The expression that a whole text spells. -/
def Expr.scan (s : Text) : Except Stop Expr :=
  match Text.trimStart s with
  | [] => .error (.fault .emptyExpression 0)
  | rest =>
    match expression rest with
    | .error stop => .error stop
    | .ok ⟨(e, rest), _⟩ =>
      match Text.trimStart rest with
      | [] => .ok e
      | c :: rest => .error (.fault (.unexpected c) (rest.length + 1))

/-- The expression that a text spells, where the text starts at position `offset` of a larger
one. -/
def Expr.read (s : Text) (offset : Int) : Except ReadError Expr :=
  match Expr.scan s with
  | .ok e => .ok e
  | .error (.fault cause unread) => .error (.malformed (offset + (s.length - unread : Nat)) cause)
  | .error (.numeral run) => .error (.numeral run)

end RandomTables.Dice
