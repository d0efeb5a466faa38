/-!
# Sources of draws

A source answers a seed and a range with a value and the next seed, and with nothing else: the same
seed and range always give the same answer. Ranges are nonempty by construction.
-/
namespace RandomTables

/-- A range of whole numbers that holds at least one. -/
structure Span where
  low : Int
  high : Int
  low_le_high : low ≤ high
  deriving DecidableEq

namespace Span

/-- The number lies in the range. -/
def holds (span : Span) (n : Int) : Bool := span.low ≤ n && n ≤ span.high

/-- How many numbers the range holds. -/
def size (span : Span) : Int := span.high - span.low + 1

theorem size_pos (span : Span) : 0 < span.size := by
  have := span.low_le_high
  unfold size
  omega

end Span

/-- A draw that was asked for: the seed and the two bounds. -/
structure Request where
  seed : Int
  low : Int
  high : Int
  deriving Repr, DecidableEq

/-- A source of draws: seed and range to value and next seed. -/
structure Source where
  draw : Int → Span → Int × Int

end RandomTables
