import RandomTables.Definition.RowReader
import RandomTables.Proofs.Fallible
import RandomTables.Proofs.Text.Numeral
import RandomTables.Proofs.Text.Pieces

/-!
# How rows are numbered

Blank lines do not count, wherever they stand: lines that differ in blank ones only are read as the
same rows, or are refused for the same row. The other lines are numbered from one. A line may
declare the totals of its row, with one number or two in front of a bar; the row on any other line
has its own number as its only total (`numberedBy_of_readAll`).
-/
namespace RandomTables.Row

/-! ## Lines that count -/

/-- The lines that are not blank. -/
def content (lines : List Text) : List Text := lines.filter fun line => !Text.allBlank line

/-- The lines differ in nothing but blank ones. -/
inductive AlikeInBlanks : List Text → List Text → Prop
  | nil : AlikeInBlanks [] []
  | keep (line : Text) {lines others : List Text} (rest : AlikeInBlanks lines others) :
    AlikeInBlanks (line :: lines) (line :: others)
  | insert {blank : Text} (hblank : Text.allBlank blank) {lines others : List Text}
    (rest : AlikeInBlanks lines others) : AlikeInBlanks lines (blank :: others)
  | remove {blank : Text} (hblank : Text.allBlank blank) {lines others : List Text}
    (rest : AlikeInBlanks lines others) : AlikeInBlanks (blank :: lines) others

theorem content_cons_of_allBlank {blank : Text} (h : Text.allBlank blank) (lines : List Text) :
    content (blank :: lines) = content lines :=
  List.filter_cons_of_neg (by simp [h])

theorem AlikeInBlanks.content_eq {lines others : List Text} (h : AlikeInBlanks lines others) :
    content others = content lines := by
  induction h with
  | nil => rfl
  | keep line _ ih =>
    unfold content at ih ⊢
    rw [List.filter_cons, List.filter_cons, ih]
  | insert hblank _ ih => rw [content_cons_of_allBlank hblank, ih]
  | remove hblank _ ih => rw [content_cons_of_allBlank hblank, ih]

/-- Blank lines change nothing about the rows, nor about the error if there is one. -/
theorem AlikeInBlanks.readAll_eq {lines others : List Text} (h : AlikeInBlanks lines others) :
    readAll others = readAll lines :=
  congrArg (readFrom 1) h.content_eq

/-! ## Totals that a line declares -/

/-- A text gives two bounds: one number for both, or two with a dash between them. Blanks may follow
each number and the dash. -/
inductive Bounds : Text → Nat → Nat → Prop
  | one {digits gap : Text} {n : Nat} (hdigits : digits.Denotes n) (hgap : Text.allBlank gap) :
    Bounds (digits ++ gap) n n
  | two {first before after second gap : Text} {low high : Nat} (hfirst : first.Denotes low)
    (hbefore : Text.allBlank before) (hafter : Text.allBlank after)
    (hsecond : second.Denotes high) (hgap : Text.allBlank gap) :
    Bounds (first ++ before ++ .char '-' :: (after ++ (second ++ gap))) low high

/-- A line declares the totals of its row: it starts with bounds and a bar, after blanks perhaps. -/
inductive Declares : Text → Head → Prop
  | intro {lead bounds body : Text} {low high : Nat} (hlead : Text.allBlank lead)
    (hbounds : Bounds bounds low high) :
    Declares (lead ++ (bounds ++ .char '|' :: body))
      ⟨low, high, lead.length, (lead ++ bounds).length + 1⟩

variable {digits gap bounds rest line s : Text} {n low high : Nat} {c : CodePoint} {head : Head}

theorem trimStart_of_denotes (h : digits.Denotes n) (rest : Text) :
    Text.trimStart (digits ++ rest) = digits ++ rest := by
  refine Text.trimStart_of_head fun c hc => ?_
  obtain ⟨d, more, rfl⟩ := List.exists_cons_of_ne_nil h.ne_nil
  obtain rfl := Option.some.inj hc
  have hdecimal := h.isDecimal d List.mem_cons_self
  exact Text.isBlank_of_isDigitSign (Text.isDigitSign_of_isDecimal hdecimal)

/-- A number is read up to the blanks after it, if another sign follows. -/
theorem bound?_of_denotes (hdigits : digits.Denotes n) (hgap : Text.allBlank gap)
    (hblank : Text.isBlank c = false) (hdecimal : Text.isDecimal c = false) (rest : Text) :
    bound? (digits ++ gap ++ c :: rest) = some (n, c :: rest) := by
  have hend : ∀ d ∈ (gap ++ c :: rest).head?, Text.isDecimal d = false := by
    intro d hd
    cases gap with
    | nil =>
      obtain rfl := Option.some.inj hd
      exact hdecimal
    | cons b gap =>
      obtain rfl := Option.some.inj hd
      -- No digit is a blank, so the digits end where the gap starts.
      refine Text.isDecimal_of_not_isDigitSign (Bool.eq_false_iff.2 fun hsign => ?_)
      have hb := Text.allBlank_iff.1 hgap b List.mem_cons_self
      rw [Text.isBlank_of_isDigitSign hsign] at hb
      cases hb
  obtain ⟨htake, hdrop⟩ := Text.takeWhile_append hdigits.isDecimal hend
  rw [List.append_assoc, bound?, htake, hdrop, Text.numeral?_eq_some_iff.2 hdigits,
    Text.trimStart_append_cons hgap hblank]
  rfl

theorem exists_of_bound? (h : bound? s = some (n, rest)) :
    ∃ digits gap, digits.Denotes n ∧ Text.allBlank gap ∧ s = digits ++ gap ++ rest := by
  obtain ⟨m, hm, heq⟩ := Option.map_eq_some_iff.1 h
  obtain ⟨rfl, rfl⟩ := Prod.mk.inj heq
  obtain ⟨gap, hgap, hdrop⟩ := Text.exists_allBlank_append (s.dropWhile Text.isDecimal)
  refine ⟨_, gap, Text.numeral?_eq_some_iff.1 hm, hgap, ?_⟩
  rw [List.append_assoc, ← hdrop, List.takeWhile_append_dropWhile]

/-- The second bound and what follows it: the number after a dash, or else the first bound again. -/
def second? (low : Nat) : Text → Option (Nat × Text)
  | .char '-' :: more => bound? (Text.trimStart more)
  | rest => some (low, rest)

/-- Both bounds that a text starts with, and what follows them. -/
def bounds? (s : Text) : Option (Nat × Nat × Text) :=
  (bound? s).bind fun first => (second? first.1 first.2).map fun second => (first.1, second)

theorem bounds?_of_bounds (h : Bounds bounds low high) (body : Text) :
    bounds? (bounds ++ .char '|' :: body) = some (low, high, .char '|' :: body) := by
  have hbar : Text.isBlank (.char '|') = false ∧ Text.isDecimal (.char '|') = false := by decide
  have hdash : Text.isBlank (.char '-') = false ∧ Text.isDecimal (.char '-') = false := by decide
  cases h with
  | one hdigits hgap =>
    rw [bounds?, bound?_of_denotes hdigits hgap hbar.1 hbar.2]
    rfl
  | @two first before after second gap low high hfirst hbefore hafter hsecond hgap =>
    have hsecond? : second? low (.char '-' :: (after ++ (second ++ gap ++ .char '|' :: body))) =
        some (high, .char '|' :: body) := by
      rw [second?, Text.trimStart_append hafter, List.append_assoc, trimStart_of_denotes hsecond,
        ← List.append_assoc, bound?_of_denotes hsecond hgap hbar.1 hbar.2]
    rw [bounds?, List.append_assoc (first ++ before), List.cons_append, List.append_assoc after,
      bound?_of_denotes hfirst hbefore hdash.1 hdash.2, Option.bind_some, hsecond?]
    rfl

theorem exists_of_second? (h : second? low s = some (high, rest)) :
    (∃ after more, s = .char '-' :: (after ++ more) ∧ Text.allBlank after ∧
      bound? more = some (high, rest)) ∨ low = high ∧ s = rest := by
  unfold second? at h
  split at h
  · next more =>
    obtain ⟨after, hafter, hmore⟩ := Text.exists_allBlank_append more
    exact .inl ⟨after, Text.trimStart more, congrArg _ hmore, hafter, h⟩
  · obtain ⟨rfl, rfl⟩ := Prod.mk.inj (Option.some.inj h)
    exact .inr ⟨rfl, rfl⟩

theorem exists_of_bounds? (h : bounds? s = some (low, high, rest)) :
    ∃ bounds, Bounds bounds low high ∧ s = bounds ++ rest := by
  obtain ⟨⟨n, more⟩, hfirst, h⟩ := Option.bind_eq_some_iff.1 h
  obtain ⟨tail, htail, h⟩ := Option.map_eq_some_iff.1 h
  obtain ⟨hlow, rfl⟩ := Prod.mk.inj h
  obtain rfl : n = low := hlow
  have hsecond : second? n more = some (high, rest) := htail
  obtain ⟨first, before, hdigits, hbefore, rfl⟩ := exists_of_bound? hfirst
  obtain ⟨after, left, rfl, hafter, hleft⟩ | ⟨rfl, rfl⟩ := exists_of_second? hsecond
  · obtain ⟨second, gap, hlast, hgap, rfl⟩ := exists_of_bound? hleft
    refine ⟨_, .two hdigits hbefore hafter hlast hgap, ?_⟩
    simp only [List.append_assoc, List.cons_append]
  · exact ⟨_, .one hdigits hbefore, rfl⟩

theorem Bounds.trimStart_append (h : Bounds bounds low high) (rest : Text) :
    Text.trimStart (bounds ++ rest) = bounds ++ rest := by
  cases h with
  | one hdigits hgap => rw [List.append_assoc, trimStart_of_denotes hdigits]
  | two hfirst hbefore hafter hsecond hgap =>
    rw [List.append_assoc, List.append_assoc, trimStart_of_denotes hfirst]

/-! What stands in front of a place in a line is as long as the line without the rest. -/

theorem length_lead (lead rest : Text) : (lead ++ rest).length - rest.length = lead.length := by
  rw [List.length_append, Nat.add_sub_cancel]

theorem length_front (lead bounds body : Text) (c : CodePoint) :
    (lead ++ (bounds ++ c :: body)).length - body.length = (lead ++ bounds).length + 1 := by
  simp only [List.length_append, List.length_cons]
  omega

theorem head?_eq (line : Text) :
    head? line = (bounds? (Text.trimStart line)).bind fun (low, high, rest) =>
      match rest with
      | .char '|' :: body => some ⟨low, high, line.length - (Text.trimStart line).length,
          line.length - body.length⟩
      | _ => none := by
  rw [bounds?, Option.bind_assoc]
  refine congrArg (Option.bind _) (funext fun (low, rest) => ?_)
  dsimp only
  split
  · next more =>
    rw [second?]
    cases bound? (Text.trimStart more) <;> rfl
  · next hdash =>
    rw [second?.eq_2 low rest hdash]
    rfl

/-- The bounds that are read at the start of a line are those that it declares. -/
theorem head?_eq_some_iff : head? line = some head ↔ Declares line head := by
  constructor
  · intro h
    rw [head?_eq] at h
    obtain ⟨⟨low, high, rest⟩, hbounds?, h⟩ := Option.bind_eq_some_iff.1 h
    obtain ⟨lead, hlead, hline⟩ := Text.exists_allBlank_append line
    obtain ⟨bounds, hbounds, hstart⟩ := exists_of_bounds? hbounds?
    rw [hstart] at h hline
    dsimp only at h
    split at h
    · obtain rfl := Option.some.inj h
      rw [hline, length_lead, length_front]
      exact .intro hlead hbounds
    · cases h
  · rintro ⟨hlead, hbounds⟩
    rw [head?_eq, Text.trimStart_append hlead, hbounds.trimStart_append, bounds?_of_bounds hbounds,
      Option.bind_some, length_lead]
    simp only [length_front]

theorem forall_not_declares_iff : (∀ head, ¬ Declares line head) ↔ head? line = none := by
  simp only [← head?_eq_some_iff, Option.eq_none_iff_forall_ne_some]

/-! ## Rows by their numbers -/

/-- The row is the one that is read from a line with a number: it has the totals that the line
declares, or else the number as its only total. -/
structure NumberedBy (row : Row) (line : Text) (number : Int) : Prop where
  read : Row.read line number = .ok row
  source : row.source = line
  declared : ∀ head, Declares line head → row.range.min = head.low ∧ row.range.max = head.high
  placed : (∀ head, ¬ Declares line head) → row.range = .single number

variable {row : Row} {rows : List Row} {lines : List Text} {number : Int} {position : Nat}
  {error : TemplateError}

theorem numberedBy_of_read (h : read line number = .ok row) : row.NumberedBy line number := by
  have hread := h
  unfold read at h
  split at h
  · next head hhead =>
    have hdeclares := head?_eq_some_iff.1 hhead
    split at h
    · cases h
    · next range hrange =>
      obtain ⟨template, _, rfl⟩ := map_eq_ok_iff.1 h
      obtain ⟨hle, hrange⟩ := Option.dite_none_right_eq_some.1 hrange
      obtain rfl := Option.some.inj hrange
      refine ⟨hread, rfl, fun other hother => ?_, fun hnone => absurd hdeclares (hnone head)⟩
      obtain rfl := Option.some.inj (hhead.symm.trans (head?_eq_some_iff.2 hother))
      exact ⟨rfl, rfl⟩
  · next hhead =>
    obtain ⟨template, _, rfl⟩ := map_eq_ok_iff.1 h
    refine ⟨hread, rfl, fun head hdeclares => ?_, fun _ => rfl⟩
    rw [head?_eq_some_iff.2 hdeclares] at hhead
    cases hhead

/-- There is one row for each line, read with the number of the line. -/
theorem reads_of_readFrom (h : readFrom position lines = .ok rows) :
    rows.length = lines.length ∧ ∀ (k : Nat) (line : Text), lines[k]? = some line →
      ∃ row, rows[k]? = some row ∧ read line ((position + k : Nat) : Int) = .ok row := by
  induction lines generalizing position rows with
  | nil =>
    obtain rfl := Except.ok.inj h
    exact ⟨rfl, nofun⟩
  | cons first lines ih =>
    unfold readFrom at h
    split at h
    · cases h
    · cases h
    · next row hrow =>
      obtain ⟨rest, hrest, rfl⟩ := map_eq_ok_iff.1 h
      obtain ⟨hlength, hreads⟩ := ih hrest
      refine ⟨congrArg (· + 1) hlength, fun k line hline => ?_⟩
      cases k with
      | zero =>
        obtain rfl := Option.some.inj hline
        exact ⟨row, rfl, hrow⟩
      | succ k =>
        obtain ⟨other, hother, hread⟩ := hreads k line hline
        refine ⟨other, hother, ?_⟩
        rwa [Nat.add_right_comm] at hread

/-- Each line that is not blank is a row, and they are numbered from one. -/
theorem numberedBy_of_readAll (h : readAll lines = .ok rows) :
    rows.length = (content lines).length ∧ ∀ (k : Nat) (line : Text),
      (content lines)[k]? = some line → ∃ row, rows[k]? = some row ∧
        row.NumberedBy line (k + 1) := by
  obtain ⟨hlength, hreads⟩ := reads_of_readFrom h
  refine ⟨hlength, fun k line hline => ?_⟩
  obtain ⟨row, hrow, hread⟩ := hreads k line hline
  refine ⟨row, hrow, ?_⟩
  have hnumbered := numberedBy_of_read hread
  rwa [show ((1 + k : Nat) : Int) = k + 1 by omega] at hnumbered

/-- The rows are on the lines that are not blank. -/
theorem sources_of_readAll (h : readAll lines = .ok rows) :
    rows.map Row.source = content lines := by
  obtain ⟨hlength, hnumbered⟩ := numberedBy_of_readAll h
  refine List.ext_getElem (by rw [List.length_map, hlength]) fun k _ hk => ?_
  obtain ⟨row, hrow, hnumber⟩ := hnumbered k _ (List.getElem?_eq_getElem hk)
  rw [List.getElem_map, (List.getElem?_eq_some_iff.1 hrow).2, hnumber.source]

/-- Where no line declares totals, each row has its number as its only total. -/
theorem range_of_readAll (h : readAll lines = .ok rows)
    (hnone : ∀ line ∈ lines, ∀ head, ¬ Declares line head) {k : Nat} (hrow : rows[k]? = some row) :
    row.range = .single (k + 1) := by
  have hline : (content lines)[k]? = some row.source := by
    rw [← sources_of_readAll h, List.getElem?_map, hrow]
    rfl
  obtain ⟨other, hother, hnumber⟩ := (numberedBy_of_readAll h).2 k _ hline
  obtain rfl := Option.some.inj (hrow.symm.trans hother)
  have hmem := (List.mem_filter.1 (List.mem_of_getElem? hline)).1
  exact hnumber.placed (hnone _ hmem)

/-- The error of a line is reported with the number of its row, unless it is for a run that denotes
no number. -/
def errorAt (number : Nat) : TemplateError → TemplateError
  | .malformed position fault => .malformed position (.inRow number fault)
  | .numeral run => .numeral run

/-- The first line that cannot be read is reported with its number. -/
theorem exists_of_readFrom_eq_error (h : readFrom position lines = .error error) :
    ∃ before line after inner, lines = before ++ line :: after ∧
      (∃ rows, readFrom position before = .ok rows) ∧
      read line ((position + before.length : Nat) : Int) = .error inner ∧
      error = errorAt (position + before.length) inner := by
  induction lines generalizing position with
  | nil => cases h
  | cons first lines ih =>
    unfold readFrom at h
    split at h
    · next hread =>
      obtain rfl := Except.error.inj h
      exact ⟨[], first, lines, _, rfl, ⟨[], rfl⟩, hread, rfl⟩
    · next hread =>
      obtain rfl := Except.error.inj h
      exact ⟨[], first, lines, _, rfl, ⟨[], rfl⟩, hread, rfl⟩
    · next row hrow =>
      obtain ⟨before, line, after, inner, rfl, ⟨rows, hbefore⟩, hread, rfl⟩ :=
        ih (map_eq_error_iff.1 h)
      have hnumber : position + 1 + before.length = position + (first :: before).length :=
        Nat.add_right_comm ..
      rw [hnumber] at hread ⊢
      refine ⟨first :: before, line, after, inner, rfl, ⟨row :: rows, ?_⟩, hread, rfl⟩
      rw [readFrom, hrow]
      exact map_eq_ok_iff.2 ⟨rows, hbefore, rfl⟩

end RandomTables.Row
