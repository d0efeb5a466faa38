import Mathlib.Data.List.TakeWhile
import RandomTables.Dice.Reader
import RandomTables.Proofs.Text.Stretch

/-!
# Runs that stop the reader of dice expressions

Every step of the reader leaves an end of the text that it was given. If it stops at a run of digit
signs that denotes no number, then the run stands in the text, and one of its signs has no place
value. The other way round, a text that is nothing but such a run stops the reader.
-/
namespace RandomTables.Dice

/-- If it was a run of digit signs that reading stopped at, it stands in the text and denotes no
number. -/
def Stop.PointsInto (s : Text) : Stop → Prop
  | fault _ _ => True
  | numeral run => run.UnreadableIn s

/-- What a step of the reader leaves of a text ends the text; and if the step stops at a run of
digit signs, the run stands in the text and denotes no number. -/
def Leaves {α : Type} (s : Text) : Except Stop (α × Text) → Prop
  | .ok p => p.2 <:+ s
  | .error stop => stop.PointsInto s

theorem Stop.PointsInto.mono {stop : Stop} {s t : Text} (h : stop.PointsInto s) (hs : s <:+: t) :
    stop.PointsInto t := by
  cases stop with
  | fault cause unread => trivial
  | numeral run => exact Text.UnreadableIn.mono h hs

/-! ## Numbers and groups of dice -/

theorem number_leaves (s : Text) : Leaves s (number s) := by
  unfold number
  split
  · exact List.suffix_rfl
  · next run hrun =>
    split
    · next hnone =>
      have hsigns : ∀ c ∈ s.takeWhile Text.isDigitSign, Text.isDigitSign c :=
        List.all_eq_true.1 List.all_takeWhile
      have hstart := List.takeWhile_prefix (l := s) Text.isDigitSign
      refine ⟨hstart.isInfix, hsigns, ?_⟩
      rcases Text.numeral?_eq_none_iff.1 hnone with hnil | hplace
      · exact absurd hnil hrun
      · exact hplace
    · exact List.dropWhile_suffix _

theorem unsigned_leaves (negative : Bool) (s : Text) : Leaves s (unsigned negative s) := by
  unfold unsigned
  have hnumber := number_leaves s
  split
  · next stop h =>
    rw [h] at hnumber
    exact hnumber
  · next count mid h =>
    rw [h] at hnumber
    have hmid : mid <:+ s := hnumber
    dsimp only
    split
    case h_1 r | h_2 r =>
      -- After either letter the number of sides is read.
      have hsuffix : r <:+ s := (List.suffix_cons _ r).trans hmid
      have hsides := number_leaves r
      split
      · next stop h =>
        rw [h] at hsides
        exact Stop.PointsInto.mono hsides hsuffix.isInfix
      · trivial
      · trivial
      · next h =>
        rw [h] at hsides
        exact List.IsSuffix.trans hsides hsuffix
    case h_3 =>
      split
      · trivial
      · exact hmid

/-! ## Expressions -/

mutual

theorem expression_leaves (s : Text) : Leaves s ((expression s).map Subtype.val) := by
  rw [expression]
  have hterm := term_leaves s
  split
  · next stop h =>
    rw [h] at hterm
    exact hterm
  · next left rest hlt h =>
    rw [h] at hterm
    have hoperators := operators_leaves left rest
    split
    · next stop h =>
      rw [h] at hoperators
      exact Stop.PointsInto.mono hoperators (List.IsSuffix.isInfix hterm)
    · next p hle h =>
      rw [h] at hoperators
      exact List.IsSuffix.trans hoperators hterm
termination_by (s.length, 1)

theorem operators_leaves (left : Expr) (s : Text) :
    Leaves s ((operators left s).map Subtype.val) := by
  rw [operators]
  split
  · exact List.nil_suffix
  · next c rest hrest =>
    have hlt := Text.length_lt_of_trimStart_eq_cons hrest
    have hsuffix := Text.suffix_of_trimStart_eq_cons hrest
    split
    · have hall := Text.trimStart_suffix s
      rw [hrest] at hall
      exact hall
    · next op _ =>
      have hterm := term_leaves rest
      split
      · next stop h =>
        rw [h] at hterm
        exact Stop.PointsInto.mono hterm hsuffix.isInfix
      · next right after hafter h =>
        have hafter : after.length < rest.length := hafter
        rw [h] at hterm
        have hrestSuffix : after <:+ s := List.IsSuffix.trans hterm hsuffix
        have hoperators := operators_leaves (.join op left right) after
        split
        · next stop h =>
          rw [h] at hoperators
          exact Stop.PointsInto.mono hoperators hrestSuffix.isInfix
        · next p hle h =>
          rw [h] at hoperators
          exact List.IsSuffix.trans hoperators hrestSuffix
termination_by (s.length, 0)

theorem term_leaves (s : Text) : Leaves s ((term s).map Subtype.val) := by
  rw [term]
  split
  · trivial
  · next rest hrest =>
    have hlt := Text.length_lt_of_trimStart_eq_cons hrest
    have hsuffix := Text.suffix_of_trimStart_eq_cons hrest
    have hexpression := expression_leaves rest
    split
    · next stop h =>
      rw [h] at hexpression
      exact Stop.PointsInto.mono hexpression hsuffix.isInfix
    · next inner after hafter h =>
      rw [h] at hexpression
      split
      · next closed hclosed =>
        have hclosedSuffix := Text.suffix_of_trimStart_eq_cons hclosed
        exact (hclosedSuffix.trans hexpression).trans hsuffix
      · trivial
  · next rest hrest =>
    have hsuffix : Text.trimStart rest <:+ s :=
      (Text.trimStart_suffix rest).trans (Text.suffix_of_trimStart_eq_cons hrest)
    have hunsigned := unsigned_leaves true (Text.trimStart rest)
    split
    · next stop h =>
      rw [h] at hunsigned
      exact Stop.PointsInto.mono hunsigned hsuffix.isInfix
    · next e after h =>
      rw [h] at hunsigned
      exact List.IsSuffix.trans hunsigned hsuffix
  · have hunsigned := unsigned_leaves false (Text.trimStart s)
    split
    · next stop h =>
      rw [h] at hunsigned
      exact Stop.PointsInto.mono hunsigned (Text.trimStart_suffix s).isInfix
    · next e after h =>
      rw [h] at hunsigned
      exact List.IsSuffix.trans hunsigned (Text.trimStart_suffix s)
termination_by (s.length, 0)

end

theorem Expr.scan_of_read {s run : Text} {offset : Int}
    (h : Expr.read s offset = .error (.numeral run)) : Expr.scan s = .error (.numeral run) := by
  unfold Expr.read at h
  split at h
  · cases h
  · cases h
  · next run' hscan => rw [hscan, ReadError.numeral.inj (Except.error.inj h)]

/-- A run of digit signs that a text is refused for stands in the text, and one of its signs has no
place value. -/
theorem Expr.unreadable_of_read {s run : Text} {offset : Int}
    (h : Expr.read s offset = .error (.numeral run)) : run.UnreadableIn s := by
  have hscan := Expr.scan_of_read h
  unfold Expr.scan at hscan
  split at hscan
  · cases hscan
  · have hexpression := expression_leaves (Text.trimStart s)
    split at hscan
    · next stop hstop =>
      rw [hstop] at hexpression
      obtain rfl := Except.error.inj hscan
      exact Text.UnreadableIn.mono hexpression (Text.trimStart_suffix s).isInfix
    · split at hscan
      · cases hscan
      · cases hscan

/-! ## Texts that are such a run -/

variable {run : Text}

theorem trimStart_of_unreadable (h : run.UnreadableIn run) : Text.trimStart run = run := by
  cases run with
  | nil => rfl
  | cons first rest =>
    have hsign := h.digitSigns first (List.mem_cons_self ..)
    exact Text.trimStart_cons_of_not_isBlank (Text.isBlank_of_isDigitSign hsign)

theorem number_of_unreadable (h : run.UnreadableIn run) : number run = .error (.numeral run) := by
  obtain ⟨c, hc, hplace⟩ := h.noPlaceValue
  have htake : run.takeWhile Text.isDigitSign = run := List.takeWhile_eq_self_iff.2 h.digitSigns
  unfold number
  split
  · next hnil =>
    rw [htake] at hnil
    subst hnil
    cases hc
  · next found hfound =>
    rw [htake, Text.numeral?_eq_none_iff.2 (.inr ⟨c, hc, hplace⟩)]

theorem term_of_unreadable (h : run.UnreadableIn run) : term run = .error (.numeral run) := by
  have hunsigned : unsigned false run = .error (.numeral run) := by
    rw [unsigned, number_of_unreadable h]
  obtain ⟨c, hc, hplace⟩ := h.noPlaceValue
  have htrim := trimStart_of_unreadable h
  have hhead : ∀ first rest, run = first :: rest → Text.isDigitSign first := by
    rintro first rest rfl
    exact h.digitSigns first (List.mem_cons_self ..)
  rw [term]
  split
  · next hnil =>
    rw [htrim] at hnil
    subst hnil
    cases hc
  · next rest hrest => exact absurd (hhead _ _ (htrim.symm.trans hrest)) (by decide +kernel)
  · next rest hrest => exact absurd (hhead _ _ (htrim.symm.trans hrest)) (by decide +kernel)
  · split
    · next stop hstop =>
      rw [htrim, hunsigned] at hstop
      rw [Except.error.inj hstop]
    · next hok =>
      rw [htrim, hunsigned] at hok
      cases hok

/-- A text that is nothing but a run of digit signs, one of them without a place value, is refused
for this run. -/
theorem Expr.read_of_unreadable (h : run.UnreadableIn run) (offset : Int) :
    Expr.read run offset = .error (.numeral run) := by
  obtain ⟨c, hc, _⟩ := h.noPlaceValue
  have hexpression : expression run = .error (.numeral run) := by
    rw [expression, term_of_unreadable h]
  have hscan : Expr.scan run = .error (.numeral run) := by
    rw [scan, trimStart_of_unreadable h]
    split
    · cases hc
    · rw [hexpression]
  rw [read, hscan]

end RandomTables.Dice
