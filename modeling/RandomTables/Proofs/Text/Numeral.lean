import RandomTables.Proofs.Text.Stretch
import RandomTables.Text.Number

/-!
# What numerals denote

A run of digits denotes a number in base ten, digit by digit. Reading such a run gives the number,
and the digits that a number is written with denote it.
-/
namespace RandomTables.Text

/-- Digits denote a number: alone a digit denotes its place value, and behind other digits it makes
of their number the tenfold and its place value. -/
inductive Denotes : Text → Nat → Prop
  | one {c : CodePoint} {d : Nat} (h : digitValue? c = some d) : Denotes [c] d
  | more {s : Text} {c : CodePoint} {n d : Nat} (hs : Denotes s n) (h : digitValue? c = some d) :
    Denotes (s ++ [c]) (n * 10 + d)

theorem isDecimal_of_digitValue? {c : CodePoint} {d : Nat} (h : digitValue? c = some d) :
    isDecimal c = true := by
  rw [isDecimal, h]
  rfl

theorem isDigitSign_of_isDecimal {c : CodePoint} (h : isDecimal c = true) :
    isDigitSign c = true := by
  rw [isDigitSign, h]
  rfl

theorem isDecimal_of_not_isDigitSign {c : CodePoint} (h : isDigitSign c = false) :
    isDecimal c = false := by
  rw [← Bool.not_eq_true]
  intro hdecimal
  rw [isDigitSign_of_isDecimal hdecimal] at h
  cases h

theorem Denotes.isDecimal {s : Text} {n : Nat} (h : Denotes s n) : ∀ c ∈ s, isDecimal c = true := by
  induction h with
  | one hd =>
    intro c hc
    obtain rfl := List.mem_singleton.1 hc
    exact isDecimal_of_digitValue? hd
  | more _ hd ih =>
    intro c hc
    rcases List.mem_append.1 hc with hc | hc
    · exact ih c hc
    · obtain rfl := List.mem_singleton.1 hc
      exact isDecimal_of_digitValue? hd

theorem Denotes.ne_nil {s : Text} {n : Nat} (h : Denotes s n) : s ≠ [] := by
  cases h <;> simp

/-! ## Reading -/

theorem numeralFrom?_append (value : Nat) (s t : Text) :
    numeralFrom? value (s ++ t) = (numeralFrom? value s).bind fun n => numeralFrom? n t := by
  induction s generalizing value with
  | nil => rfl
  | cons c s ih =>
    rw [List.cons_append, numeralFrom?, numeralFrom?]
    cases digitValue? c with
    | none => rfl
    | some d => exact ih _

theorem Denotes.numeralFrom?_eq {s : Text} {n : Nat} (h : Denotes s n) :
    numeralFrom? 0 s = some n := by
  induction h with
  | one hd => simp [numeralFrom?, hd]
  | more _ hd ih => simp [numeralFrom?_append, ih, numeralFrom?, hd]

/-- Digits that are read after a number go on with it. -/
theorem Denotes.append {begun s : Text} {value n : Nat} (hbegun : Denotes begun value)
    (h : numeralFrom? value s = some n) : Denotes (begun ++ s) n := by
  induction s generalizing begun value with
  | nil =>
    obtain rfl := Option.some.inj h
    rwa [List.append_nil]
  | cons c s ih =>
    rw [numeralFrom?] at h
    cases hd : digitValue? c with
    | none =>
      rw [hd] at h
      cases h
    | some d =>
      rw [hd] at h
      have hwhole := ih (hbegun.more hd) h
      rwa [List.append_assoc] at hwhole

/-- A run is read as the number that it denotes. -/
theorem numeral?_eq_some_iff {s : Text} {n : Nat} : numeral? s = some n ↔ Denotes s n := by
  constructor
  · intro h
    cases s with
    | nil => cases h
    | cons c s =>
      have hread : numeralFrom? 0 (c :: s) = some n := h
      rw [numeralFrom?] at hread
      cases hd : digitValue? c with
      | none =>
        rw [hd] at hread
        cases hread
      | some d =>
        simp only [hd, Nat.zero_mul, Nat.zero_add] at hread
        exact Denotes.append (.one hd) hread
  · intro h
    rw [numeral?, List.isEmpty_eq_false_iff.2 h.ne_nil]
    exact h.numeralFrom?_eq

/-! ## Writing -/

theorem digitValue?_digitChar {d : Nat} (h : d < 10) :
    digitValue? (.char (Nat.digitChar d)) = some d := by
  decide +revert

theorem natural_eq (n : Nat) :
    natural n = if n < 10 then [.char (Nat.digitChar n)]
      else natural (n / 10) ++ [.char (Nat.digitChar (n % 10))] := by
  rw [natural, Nat.toDigits_eq_if (by decide)]
  split
  · rfl
  · exact List.map_append

/-- A number is written with digits that denote it. -/
theorem denotes_natural (n : Nat) : Denotes (natural n) n := by
  rw [natural_eq]
  split
  · next hlt => exact .one (digitValue?_digitChar hlt)
  · next hge =>
    have hlead := denotes_natural (n / 10)
    have hlast := digitValue?_digitChar (Nat.mod_lt n (show 0 < 10 by decide))
    have hwhole := hlead.more hlast
    rwa [Nat.mul_comm, Nat.div_add_mod] at hwhole
termination_by n

/-- What a number is written with: digits, and a minus sign perhaps. -/
theorem of_mem_integer {i : Int} {c : CodePoint} (h : c ∈ integer i) : isDecimal c = true ∨ c = .char '-' := by
  unfold integer at h
  split at h
  · obtain rfl | h := List.mem_cons.1 h
    · exact .inr rfl
    · exact .inl ((denotes_natural _).isDecimal c h)
  · exact .inl ((denotes_natural _).isDecimal c h)

theorem isBlank_of_mem_integer {i : Int} {c : CodePoint} (h : c ∈ integer i) : isBlank c = false := by
  obtain hdecimal | rfl := of_mem_integer h
  · exact isBlank_of_isDigitSign (isDigitSign_of_isDecimal hdecimal)
  · decide

end RandomTables.Text
