import Mathlib.Data.Int.ModEq
import Mathlib.Data.List.Nodup
import Mathlib.Tactic.Ring
import RandomTables.Draw.SplitMix

/-!
# Draws made one after another

Of draws that are made one after another, each starts from the seed that the one before it left. The
mixing source moves the seed on by the same odd constant whatever is asked for. So the seeds do not
depend on the ranges, and since the constant is odd, none comes up twice before each of the 2 ^ 64
counters has come up, whether or not the first seed is a counter itself.
-/
namespace RandomTables

/-- The source is asked for these draws one after another, the first from this seed; it comes to
these values and leaves this seed. -/
inductive Source.Draws (source : Source) : Int → List Request → List Int → Int → Prop
  | nil (seed : Int) : Draws source seed [] [] seed
  | cons {seed next : Int} (span : Span) {asked : List Request} {values : List Int}
    (others : Draws source (source.draw seed span).2 asked values next) :
    Draws source seed (⟨seed, span.low, span.high⟩ :: asked)
      ((source.draw seed span).1 :: values) next

namespace Source.Draws
variable {source : Source} {seed next last : Int} {asked more : List Request}
  {values others : List Int}

theorem append (h : source.Draws seed asked values next) (h' : source.Draws next more others last) :
    source.Draws seed (asked ++ more) (values ++ others) last := by
  induction h with
  | nil => exact h'
  | cons span _ ih => exact .cons span (ih h')

theorem length_eq (h : source.Draws seed asked values next) : asked.length = values.length := by
  induction h with
  | nil => rfl
  | cons span _ ih => rw [List.length_cons, List.length_cons, ih]

end Source.Draws

namespace SplitMix

def seedAfter (seed : Int) : Nat → Int
  | 0 => seed
  | n + 1 => seedAfter (advance seed).toNat n

theorem advance_modEq (seed : Int) :
    ((advance seed).toNat : Int) ≡ seed + gamma.toNat [ZMOD 2 ^ 64] := by
  have hseed : ((UInt64.ofInt seed).toNat : Int) = seed % 2 ^ 64 := by
    simp only [UInt64.ofInt, UInt64.toNat_ofNat']
    omega
  rw [advance, UInt64.toNat_add]
  push_cast
  rw [hseed]
  exact (Int.mod_modEq _ _).trans ((Int.mod_modEq _ _).add_right _)

/-- The seeds are those of a counter. -/
theorem seedAfter_modEq (seed : Int) (n : Nat) :
    seedAfter seed n ≡ seed + n * gamma.toNat [ZMOD 2 ^ 64] := by
  induction n generalizing seed with
  | zero => simp [seedAfter]
  | succ n ih =>
    calc seedAfter seed (n + 1)
        ≡ (advance seed).toNat + n * gamma.toNat [ZMOD 2 ^ 64] := ih (advance seed).toNat
      _ ≡ seed + gamma.toNat + n * gamma.toNat [ZMOD 2 ^ 64] := (advance_modEq seed).add_right _
      _ = seed + (n + 1 : Nat) * gamma.toNat := by push_cast; ring

/-- No seed comes up twice among the first 2 ^ 64. -/
theorem seedAfter_inj {seed : Int} {i j : Nat} (hi : i < 2 ^ 64) (hj : j < 2 ^ 64)
    (h : seedAfter seed i = seedAfter seed j) : i = j := by
  have hcounter : seed + i * gamma.toNat ≡ seed + j * gamma.toNat [ZMOD 2 ^ 64] :=
    (seedAfter_modEq seed i).symm.trans (h ▸ seedAfter_modEq seed j)
  have hmul : i * gamma.toNat ≡ j * gamma.toNat [MOD 2 ^ 64] := by
    refine Int.natCast_modEq_iff.1 ?_
    push_cast
    exact hcounter.add_left_cancel' seed
  -- The constant is odd, so it can be cancelled.
  have hcoprime : Nat.gcd (2 ^ 64) gamma.toNat = 1 := by decide +kernel
  exact (Nat.ModEq.cancel_right_of_coprime hcoprime hmul).eq_of_lt_of_lt hi hj

/-- The first seeds are pairwise different, as long as there are no more than 2 ^ 64. -/
theorem nodup_seedAfter (seed : Int) {n : Nat} (hn : n ≤ 2 ^ 64) :
    ((List.range n).map (seedAfter seed)).Nodup := by
  refine List.Nodup.map_on (fun i hi j hj h => ?_) List.nodup_range
  have hi := List.mem_range.1 hi
  have hj := List.mem_range.1 hj
  exact seedAfter_inj (by omega) (by omega) h

section Draws
variable {seed next : Int} {asked : List Request} {values : List Int}

/-- One draw for each value, whatever the ranges are. -/
theorem next_of_draws (h : source.Draws seed asked values next) :
    next = seedAfter seed values.length := by
  induction h with
  | nil => rfl
  | cons span _ ih => exact ih

theorem seeds_of_draws (h : source.Draws seed asked values next) :
    asked.map Request.seed = (List.range asked.length).map (seedAfter seed) := by
  induction h with
  | nil => rfl
  | cons span _ ih =>
    rw [List.length_cons, List.range_succ_eq_map, List.map_cons, List.map_cons, ih, List.map_map]
    rfl

/-- A value at some position is drawn with the seed at this position. -/
theorem value_of_draws (h : source.Draws seed asked values next) {i : Nat} {value : Int}
    (hvalue : values[i]? = some value) :
    ∃ span : Span, asked[i]? = some ⟨seedAfter seed i, span.low, span.high⟩ ∧
      value = (draw (seedAfter seed i) span).1 := by
  induction h generalizing i with
  | nil => simp at hvalue
  | cons span _ ih =>
    cases i with
    | zero => exact ⟨span, rfl, (Option.some.inj hvalue).symm⟩
    | succ i => exact ih hvalue

end Draws

end SplitMix
end RandomTables
