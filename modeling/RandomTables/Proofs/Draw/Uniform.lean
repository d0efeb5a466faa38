import Mathlib.Algebra.Order.Floor.Div
import Mathlib.Data.Int.CardIntervalMod
import RandomTables.Proofs.Draw.Consecutive
import RandomTables.Proofs.Draw.Recorded

/-!
# Draws over all counters

Mixing loses nothing: a word can be told from its exclusive sum with its own shift to the right, and
an odd factor can be undone. So over all counters every word comes up exactly once, and a value is
drawn by as many counters as there are words that leave its remainder. Where the words cannot be
dealt out evenly, some values come up once more than the others do.
-/
namespace RandomTables.SplitMix
open Finset

/-! ## Mixing loses nothing -/

section Mix
variable {shift factor inverse : UInt64}

/-- No word but zero is its own shift to the right. -/
theorem eq_zero_of_shiftRight_eq (hshift : shift.toNat % 64 ≠ 0) {z : UInt64}
    (h : z >>> shift = z) : z = 0 := by
  have hdiv : z.toNat / 2 ^ (shift.toNat % 64) = z.toNat := by
    rw [← Nat.shiftRight_eq_div_pow, ← UInt64.toNat_shiftRight, h]
  by_contra hne
  have hpos : 0 < z.toNat := Nat.pos_of_ne_zero fun hzero => hne (UInt64.toNat.inj hzero)
  exact (Nat.div_lt_self hpos (Nat.one_lt_two_pow hshift)).ne hdiv

theorem xor_shiftRight_injective (hshift : shift.toNat % 64 ≠ 0) :
    Function.Injective fun z : UInt64 => z ^^^ (z >>> shift) := by
  intro z w h
  have h : z ^^^ (z >>> shift) = w ^^^ (w >>> shift) := h
  -- What the two words differ by is its own shift.
  have hdiffer : (z ^^^ w) >>> shift = z ^^^ w := by
    rw [UInt64.shiftRight_xor]
    calc (z >>> shift) ^^^ (w >>> shift)
        = (z >>> shift) ^^^ (w ^^^ (w ^^^ (w >>> shift))) := by
          rw [← UInt64.xor_assoc w, UInt64.xor_self, UInt64.zero_xor]
      _ = (z >>> shift) ^^^ (w ^^^ (z ^^^ (z >>> shift))) := by rw [h]
      _ = z ^^^ w := by ac_nf; simp
  exact UInt64.xor_eq_zero_iff.1 (eq_zero_of_shiftRight_eq hshift hdiffer)

/-- A factor that has an inverse can be undone. -/
theorem mul_injective (h : factor * inverse = 1) :
    Function.Injective fun z : UInt64 => z * factor := by
  intro z w hzw
  have hzw : z * factor * inverse = w * factor * inverse := congrArg (· * inverse) hzw
  rwa [UInt64.mul_assoc, UInt64.mul_assoc, h, UInt64.mul_one, UInt64.mul_one] at hzw

theorem mix_injective : Function.Injective mix := by
  have hfirst : (0xBF58476D1CE4E5B9 : UInt64) * 0x96DE1B173F119089 = 1 := by decide
  have hsecond : (0x94D049BB133111EB : UInt64) * 0x319642B2D24D8EC3 = 1 := by decide
  have hthird := @xor_shiftRight_injective 31 (by decide)
  exact hthird.comp <|
    ((mul_injective hsecond).comp (@xor_shiftRight_injective 27 (by decide))).comp <|
      (mul_injective hfirst).comp (@xor_shiftRight_injective 30 (by decide))

end Mix

/-! ## Counters and words -/

/-- The word that a draw with this counter is made from. -/
def word (counter : Nat) : Nat := (mix (advance counter)).toNat

theorem word_lt (counter : Nat) : word counter < 2 ^ 64 := (mix (advance counter)).toNat_lt

/-- No two counters come to the same word. -/
theorem word_injOn : Set.InjOn word (range (2 ^ 64)) := by
  intro i hi j hj h
  have hi := Finset.mem_range.1 hi
  have hj := Finset.mem_range.1 hj
  have hadvance : advance i = advance j := mix_injective (UInt64.toNat.inj h)
  have hfirst := advance_modEq i
  rw [hadvance] at hfirst
  have hseeds : (i : Int) ≡ j [ZMOD 2 ^ 64] :=
    (hfirst.symm.trans (advance_modEq j)).add_right_cancel' _
  have hcounters : i ≡ j [MOD 2 ^ 64] := Int.natCast_modEq_iff.1 (by exact_mod_cast hseeds)
  exact hcounters.eq_of_lt_of_lt hi hj

/-- Each word comes up. -/
theorem image_word : (range (2 ^ 64)).image word = range (2 ^ 64) := by
  refine eq_of_subset_of_card_le ?_ (card_image_of_injOn word_injOn).ge
  intro n hn
  obtain ⟨counter, _, rfl⟩ := mem_image.1 hn
  exact mem_range.2 (word_lt counter)

/-- A condition holds of as many counters' words as it holds of words. -/
theorem card_filter_word (p : Nat → Prop) [DecidablePred p] :
    #{counter ∈ range (2 ^ 64) | p (word counter)} = Nat.count p (2 ^ 64) := by
  have hinj : Set.InjOn word ({counter ∈ range (2 ^ 64) | p (word counter)} : Finset Nat) :=
    word_injOn.mono (coe_subset.2 (filter_subset _ _))
  calc #{counter ∈ range (2 ^ 64) | p (word counter)}
      = #({counter ∈ range (2 ^ 64) | p (word counter)}.image word) :=
        (card_image_of_injOn hinj).symm
    _ = #{n ∈ range (2 ^ 64) | p n} := by rw [← filter_image, image_word]
    _ = Nat.count p (2 ^ 64) := (Nat.count_eq_card_filter_range p _).symm

/-! ## Counters and values -/

/-- The counters whose draw from the range is this value. -/
def countersFor (span : Span) (value : Int) : Finset Nat :=
  {counter ∈ range (2 ^ 64) | (draw counter span).1 = value}

section Span
variable {span : Span} {value : Int}

theorem draw_fst (counter : Nat) (span : Span) :
    (draw counter span).1 = span.low + (word counter % span.size.toNat : Nat) := by
  rw [Int.natCast_mod, Int.toNat_of_nonneg span.size_pos.le]
  rfl

/-- The distance of a value from the lower bound is a remainder. -/
theorem distance_lt (hvalue : span.holds value) :
    (value - span.low).toNat < span.size.toNat := by
  obtain ⟨hlow, hhigh⟩ := Span.holds_iff.1 hvalue
  unfold Span.size
  omega

/-- A counter draws the value whose distance from the lower bound its word leaves. -/
theorem draw_eq_iff (hvalue : span.holds value) (counter : Nat) :
    (draw counter span).1 = value ↔
      word counter ≡ (value - span.low).toNat [MOD span.size.toNat] := by
  obtain ⟨hlow, _⟩ := Span.holds_iff.1 hvalue
  rw [draw_fst, Nat.ModEq, Nat.mod_eq_of_lt (distance_lt hvalue)]
  omega

/-- The words are dealt out to the values in turn, beginning with the lowest. -/
theorem card_countersFor (hvalue : span.holds value) :
    #(countersFor span value) = 2 ^ 64 / span.size.toNat +
      if (value - span.low).toNat < 2 ^ 64 % span.size.toNat then 1 else 0 := by
  have hdistance := distance_lt hvalue
  calc #(countersFor span value)
      = #{counter ∈ range (2 ^ 64) |
          word counter ≡ (value - span.low).toNat [MOD span.size.toNat]} := by
        simp only [countersFor, draw_eq_iff hvalue]
    _ = Nat.count (fun n => n ≡ (value - span.low).toNat [MOD span.size.toNat]) (2 ^ 64) :=
        card_filter_word fun n => n ≡ (value - span.low).toNat [MOD span.size.toNat]
    _ = _ := by
        rw [Nat.count_modEq_card _ (Nat.zero_lt_of_lt hdistance), Nat.mod_eq_of_lt hdistance]

end Span

theorem ceilDiv_of_mod_pos {m n : Nat} (hn : 0 < n) (h : 0 < m % n) : m ⌈/⌉ n = m / n + 1 := by
  have hm := Nat.div_add_mod m n
  have hless := Nat.mod_lt m hn
  rw [Nat.ceilDiv_eq_add_pred_div]
  refine Nat.div_eq_of_lt_le ?_ ?_
  · rw [Nat.add_one_mul, Nat.mul_comm]
    omega
  · rw [Nat.add_one_mul, Nat.add_one_mul, Nat.mul_comm]
    omega

/-- Over all counters, each value of a range that is not larger than the words comes up as often as
each other one, or once more. So each value is reached, and if there are as many values as words,
different counters draw different values. -/
theorem counters_dealt_evenly (span : Span) (hsize : span.size ≤ 2 ^ 64) :
    (∀ value, span.holds value →
      #(countersFor span value) = 2 ^ 64 / span.size.toNat ∨
        #(countersFor span value) = 2 ^ 64 ⌈/⌉ span.size.toNat) ∧
    (∀ value, span.holds value →
      ∃ counter : Nat, counter < 2 ^ 64 ∧ (draw counter span).1 = value) ∧
    (span.size = 2 ^ 64 → Set.InjOn (fun counter : Nat => (draw counter span).1)
      {counter | counter < 2 ^ 64}) := by
  have hpos : 0 < span.size.toNat := Int.pos_iff_toNat_pos.1 span.size_pos
  refine ⟨fun value hvalue => ?_, fun value hvalue => ?_, fun hwords i hi j hj h => ?_⟩
  · have hcard := card_countersFor hvalue
    split at hcard
    · next hless =>
      exact .inr (hcard.trans (ceilDiv_of_mod_pos hpos (Nat.zero_lt_of_lt hless)).symm)
    · exact .inl hcard
  · have hone : 1 ≤ 2 ^ 64 / span.size.toNat := (Nat.one_le_div_iff hpos).2 (by omega)
    have hcard : 0 < #(countersFor span value) := by
      rw [card_countersFor hvalue]
      omega
    obtain ⟨counter, hcounter⟩ := card_pos.1 hcard
    obtain ⟨hrange, hdraw⟩ := mem_filter.1 hcounter
    exact ⟨counter, mem_range.1 hrange, hdraw⟩
  · have hsize : span.size.toNat = 2 ^ 64 := by omega
    have hword : word i % span.size.toNat = word j % span.size.toNat := by
      have h : (draw i span).1 = (draw j span).1 := h
      rw [draw_fst, draw_fst] at h
      omega
    rw [hsize, Nat.mod_eq_of_lt (word_lt i), Nat.mod_eq_of_lt (word_lt j)] at hword
    exact word_injOn (mem_coe.2 (mem_range.2 hi)) (mem_coe.2 (mem_range.2 hj)) hword

def sixFaces : Span := ⟨1, 6, by decide⟩

def wordFaces : Span := ⟨0, 2 ^ 64 - 1, by decide⟩

/-- The counters do not come out even for six faces, and they do for as many values as words. -/
theorem sixFaces_dealt_evenly :
    sixFaces.size ≤ 2 ^ 64 ∧ wordFaces.size ≤ 2 ^ 64 ∧
      (∀ value, sixFaces.holds value →
        #(countersFor sixFaces value) = 3074457345618258602 ∨
          #(countersFor sixFaces value) = 3074457345618258603) ∧
      (∃ counter : Nat, counter < 2 ^ 64 ∧ (draw counter sixFaces).1 = 6) ∧
      Set.InjOn (fun counter : Nat => (draw counter wordFaces).1) {counter | counter < 2 ^ 64} := by
  have hsix : sixFaces.size ≤ 2 ^ 64 := by decide
  have hwords : wordFaces.size ≤ 2 ^ 64 := by decide
  obtain ⟨hdealt, hreached, _⟩ := counters_dealt_evenly sixFaces hsix
  refine ⟨hsix, hwords, hdealt, hreached 6 (by decide), ?_⟩
  exact (counters_dealt_evenly wordFaces hwords).2.2 (by decide)

end RandomTables.SplitMix
