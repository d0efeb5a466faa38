import RandomTables.Draw.Replay

/-!
# Sources that keep to the range

A source keeps to the range if every number it draws lies in the range that was asked for, as both
sources of the library do. A replay that holds such numbers from a position on hands them out again
when they are asked for in order, and counts no overrun.
-/
namespace RandomTables

/-- Every number that the source draws lies in the range that was asked for. -/
def Source.Bounded (source : Source) : Prop :=
  ∀ (seed : Int) (span : Span), span.holds (source.draw seed span).1

theorem Span.holds_iff {span : Span} {n : Int} : span.holds n ↔ span.low ≤ n ∧ n ≤ span.high := by
  simp [holds]

theorem SplitMix.source_bounded : SplitMix.source.Bounded := by
  intro seed span
  exact Span.holds_iff.2 (draw_mem seed span)

namespace Replay

theorem source_bounded (r : Replay) : r.source.Bounded := by
  intro seed span
  exact Span.holds_iff.2 (r.draw_mem seed span)

/-- The replay has these values recorded from a position on. -/
def Holds (r : Replay) (position : Int) (values : List Int) : Prop :=
  ∀ (i : Nat) (value : Int), values[i]? = some value → r.recorded? (position + i) = some value

theorem holds_nil (r : Replay) (position : Int) : r.Holds position [] := by
  intro i value h
  simp at h

theorem holds_cons_iff {r : Replay} {position value : Int} {values : List Int} :
    r.Holds position (value :: values) ↔
      r.recorded? position = some value ∧ r.Holds (position + 1) values := by
  constructor
  · intro h
    refine ⟨by simpa using h 0 value rfl, ?_⟩
    intro i v hv
    have := h (i + 1) v (by simpa using hv)
    rwa [show position + 1 + (i : Int) = position + ((i + 1 : Nat) : Int) by omega]
  · rintro ⟨h0, h1⟩ i v hv
    cases i with
    | zero =>
      obtain rfl : value = v := by simpa using hv
      simpa using h0
    | succ i =>
      have := h1 i v (by simpa using hv)
      rwa [show position + ((i + 1 : Nat) : Int) = position + 1 + (i : Int) by omega]

theorem holds_append_iff {r : Replay} {position : Int} {values more : List Int} :
    r.Holds position (values ++ more) ↔
      r.Holds position values ∧ r.Holds (position + values.length) more := by
  induction values generalizing position with
  | nil => simp [holds_nil]
  | cons value values ih =>
    rw [List.cons_append, holds_cons_iff, holds_cons_iff, ih, and_assoc,
      show position + 1 + (values.length : Int) = position + ((value :: values).length : Int) by
        simp only [List.length_cons]; omega]

/-- A replay holds a part of its record from where the part starts. -/
theorem start_holds (seed : Int) (earlier values later : List Int) :
    (start seed (earlier ++ values ++ later).toArray).Holds earlier.length values := by
  intro i value h
  obtain ⟨hi, hv⟩ := List.getElem?_eq_some_iff.1 h
  simp only [recorded?, start]
  rw [if_neg (by omega), show ((earlier.length : Int) + i).toNat = earlier.length + i by omega]
  simpa [List.getElem?_append, hi] using hv

theorem start_holds_all (seed : Int) (values : List Int) :
    (start seed values.toArray).Holds 0 values := by
  simpa using start_holds seed [] values []

/-- A recorded value that lies in the range is handed out. -/
theorem served?_of_recorded {r : Replay} {position value low high : Int}
    (h : r.recorded? position = some value) (hlow : low ≤ value) (hhigh : value ≤ high) :
    r.served? ⟨position, low, high⟩ = some value := by
  simp [served?, h, hlow, hhigh]

theorem draw_of_recorded {r : Replay} {position value : Int} {span : Span}
    (h : r.recorded? position = some value) (hlow : span.low ≤ value) (hhigh : value ≤ span.high) :
    r.draw position span = (value, position + 1) := by
  simp [draw, served?_of_recorded h hlow hhigh]

/-- What a replay hands out does not depend on its counters. -/
theorem served?_note (r : Replay) (q q' : Request) : (r.note q).served? q' = r.served? q' := rfl

theorem overruns_noteAll {r : Replay} {requests : List Request}
    (h : ∀ q ∈ requests, (r.served? q).isSome) : (r.noteAll requests).overruns = r.overruns := by
  induction requests generalizing r with
  | nil => rfl
  | cons q rest ih =>
    have hq : (r.note q).overruns = r.overruns := by
      simp [note, h q (List.mem_cons_self ..)]
    have hrest : ∀ q' ∈ rest, ((r.note q).served? q').isSome := by
      intro q' hq'
      rw [served?_note]
      exact h q' (List.mem_cons_of_mem _ hq')
    change ((r.note q).noteAll rest).overruns = r.overruns
    rw [ih hrest, hq]

end Replay
end RandomTables
