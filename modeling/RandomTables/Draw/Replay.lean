import RandomTables.Draw.SplitMix

/-!
# Replayed draws

A replay hands back recorded values. The seed that is threaded through the draws is the position in
the record. Where the record has no value, or one outside the range, a value is made up from the
replay's own seed and the position, and the draw counts as an overrun.

What is drawn depends on the record and the request alone; the counters are kept beside it.
-/
namespace RandomTables

/-- A record of draws with the counters of one replay. -/
structure Replay where
  seed : Int
  stream : Array Int
  overruns : Nat
  furthest : Nat
  deriving Repr, DecidableEq

namespace Replay

/-- A replay of a record that nothing has been drawn from. -/
def start (seed : Int) (stream : Array Int) : Replay := ⟨seed, stream, 0, 0⟩

def recorded? (r : Replay) (position : Int) : Option Int :=
  if position < 0 then none else r.stream[position.toNat]?

/-- The recorded value at a position, if it lies between the bounds. -/
def served? (r : Replay) (q : Request) : Option Int :=
  (r.recorded? q.seed).filter fun value => q.low ≤ value && value ≤ q.high

/-- The value for a position, and the next position. -/
def draw (r : Replay) (position : Int) (span : Span) : Int × Int :=
  match r.served? ⟨position, span.low, span.high⟩ with
  | some value => (value, position + 1)
  | none => ((SplitMix.draw (r.seed + position) span).1, position + 1)

def source (r : Replay) : Source := ⟨r.draw⟩

/-- The counters after a request. -/
def note (r : Replay) (q : Request) : Replay :=
  { r with
    furthest := max r.furthest (q.seed + 1).toNat
    overruns := if (r.served? q).isSome then r.overruns else r.overruns + 1 }

/-- The counters after requests in order. -/
def noteAll (r : Replay) (requests : List Request) : Replay := requests.foldl note r

def reset (r : Replay) : Replay := start r.seed r.stream

/-- How many recorded values lie beyond every position asked for. -/
def remaining (r : Replay) : Nat := r.stream.size - r.furthest

/-- Every value lies in the range that was asked for. -/
theorem draw_mem (r : Replay) (position : Int) (span : Span) :
    span.low ≤ (r.draw position span).1 ∧ (r.draw position span).1 ≤ span.high := by
  unfold draw
  split
  · next value h =>
    have := (Option.filter_eq_some_iff.1 h).2
    simpa using this
  · exact SplitMix.draw_mem _ span

@[simp] theorem draw_next (r : Replay) (position : Int) (span : Span) :
    (r.draw position span).2 = position + 1 := by
  unfold draw
  split <;> rfl

@[simp] theorem note_seed (r : Replay) (q : Request) : (r.note q).seed = r.seed := rfl

@[simp] theorem note_stream (r : Replay) (q : Request) : (r.note q).stream = r.stream := rfl

end Replay
end RandomTables
