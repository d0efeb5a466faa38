import RandomTables.Draw.Source

/-!
# The mixing source

The seed is a counter of 64 bits that each draw moves on by one odd constant. The counter is mixed
by shifts and odd multiplications, each of which loses nothing, and the mixed word is reduced to
the range.
-/
namespace RandomTables.SplitMix

/-- The odd constant that moves the counter on. -/
def gamma : UInt64 := 0x9E3779B97F4A7C15

def mix (z : UInt64) : UInt64 :=
  let z := (z ^^^ (z >>> 30)) * 0xBF58476D1CE4E5B9
  let z := (z ^^^ (z >>> 27)) * 0x94D049BB133111EB
  z ^^^ (z >>> 31)

/-- The counter after a seed of any size. -/
def advance (seed : Int) : UInt64 := UInt64.ofInt seed + gamma

/-- The mixed word reduced to the range, and the counter as the next seed. -/
def draw (seed : Int) (span : Span) : Int × Int :=
  let state := advance seed
  (span.low + ((mix state).toNat : Int) % span.size, state.toNat)

def source : Source := ⟨draw⟩

/-- Every value lies in the range that was asked for. -/
theorem draw_mem (seed : Int) (span : Span) :
    span.low ≤ (draw seed span).1 ∧ (draw seed span).1 ≤ span.high := by
  have hpos := span.size_pos
  have h0 := Int.emod_nonneg ((mix (advance seed)).toNat : Int) (Int.ne_of_gt hpos)
  have h1 := Int.emod_lt_of_pos ((mix (advance seed)).toNat : Int) hpos
  simp only [draw]
  simp only [Span.size] at h0 h1 ⊢
  omega

end RandomTables.SplitMix
