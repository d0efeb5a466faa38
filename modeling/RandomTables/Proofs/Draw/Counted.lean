import Mathlib.Algebra.Order.Ring.Int
import Mathlib.Data.List.Forall2
import Mathlib.Order.Bounds.Defs
import RandomTables.Proofs.Draw.Recorded

/-!
# Counting the draws of a replay

Draws may be asked of a replay at any positions, in any order and over again. A draw moves the
counters on and nothing else, and what it comes to does not depend on them: it can be told from the
seed, the record, the position and the range. The counters in turn tell what was asked since they
were at zero: how many draws the record had no value for, and how far the furthest of them got
(`takeAll_counted`).
-/
namespace RandomTables

/-- A draw that is asked of a replay. -/
structure Ask where
  position : Int
  span : Span

namespace Ask

/-- What is noted of a draw. -/
def request (ask : Ask) : Request := ⟨ask.position, ask.span.low, ask.span.high⟩

/-- The record has no value for the draw: its position is no place in the record, or the value at
that place is outside the range. -/
inductive Overruns (stream : Array Int) (ask : Ask) : Prop
  | outside (h : ask.position < 0 ∨ stream.size ≤ ask.position)
  | unfit (i : Nat) (value : Int) (hplace : ask.position = i) (hvalue : stream[i]? = some value)
    (hspan : ¬ ask.span.holds value)

/-- What a draw comes to with a seed and a record: a number in the range and the position behind
that of the draw. The number is the recorded one unless the draw overruns the record; in that case
it is mixed from the seed and the position. -/
structure Answered (seed : Int) (stream : Array Int) (ask : Ask) (answer : Int × Int) : Prop where
  in_span : ask.span.holds answer.1
  next : answer.2 = ask.position + 1
  value : (∃ i : Nat, ask.position = i ∧ stream[i]? = some answer.1) ∨
    ask.Overruns stream ∧ answer.1 = (SplitMix.draw (seed + ask.position) ask.span).1

end Ask

namespace Replay

/-- Make a draw: what it comes to, and the replay with its counters moved on. -/
def take (r : Replay) (ask : Ask) : (Int × Int) × Replay :=
  (r.draw ask.position ask.span, r.note ask.request)

/-- Make draws one after another. -/
def takeAll (r : Replay) : List Ask → List (Int × Int) × Replay
  | [] => ([], r)
  | ask :: rest =>
    let (answer, r) := r.take ask
    let (answers, r) := r.takeAll rest
    (answer :: answers, r)

variable {r : Replay} {ask : Ask} {value : Int}

/-! ## One draw -/

theorem recorded?_eq_some_iff {position : Int} :
    r.recorded? position = some value ↔ ∃ i : Nat, position = i ∧ r.stream[i]? = some value := by
  unfold recorded?
  split
  · next hneg =>
    refine iff_of_false nofun ?_
    rintro ⟨i, hi, -⟩
    omega
  · next hpos =>
    constructor
    · intro hvalue
      exact ⟨position.toNat, by omega, hvalue⟩
    · rintro ⟨i, rfl, hvalue⟩
      exact hvalue

/-- A draw is served with the value that is recorded at its position if that fits. -/
theorem served?_eq_some_iff :
    r.served? ask.request = some value ↔
      (∃ i : Nat, ask.position = i ∧ r.stream[i]? = some value) ∧ ask.span.holds value := by
  rw [served?, Option.filter_eq_some_iff, ← recorded?_eq_some_iff]
  rfl

theorem served?_eq_none_iff : r.served? ask.request = none ↔ ask.Overruns r.stream := by
  rw [Option.eq_none_iff_forall_ne_some]
  simp only [ne_eq, served?_eq_some_iff, not_and]
  constructor
  · intro h
    by_cases hplace : ask.position < 0 ∨ r.stream.size ≤ ask.position
    · exact .outside hplace
    · have hlt : ask.position.toNat < r.stream.size := by omega
      have hi : ask.position = ask.position.toNat := by omega
      have hvalue := Array.getElem?_eq_getElem hlt
      exact .unfit _ _ hi hvalue (h _ ⟨_, hi, hvalue⟩)
  · rintro (houtside | ⟨i, recorded, hi, hrecorded, hspan⟩) value ⟨j, hj, hvalue⟩
    · obtain ⟨hlt, -⟩ := Array.getElem?_eq_some_iff.1 hvalue
      omega
    · obtain rfl : i = j := by omega
      obtain rfl := Option.some.inj (hrecorded.symm.trans hvalue)
      exact hspan

instance (stream : Array Int) (ask : Ask) : Decidable (ask.Overruns stream) :=
  decidable_of_iff ((start 0 stream).served? ask.request = none) served?_eq_none_iff

/-- What a draw comes to, whatever the counters are. -/
theorem answered (r : Replay) (ask : Ask) : ask.Answered r.seed r.stream (r.take ask).1 := by
  refine ⟨r.source_bounded ask.position ask.span, r.draw_next ask.position ask.span, ?_⟩
  cases hserved : r.served? ⟨ask.position, ask.span.low, ask.span.high⟩ with
  | some value =>
    refine .inl ?_
    rw [take, draw, hserved]
    exact (served?_eq_some_iff.1 hserved).1
  | none =>
    refine .inr ⟨served?_eq_none_iff.1 hserved, ?_⟩
    rw [take, draw, hserved]

theorem overruns_take (r : Replay) (ask : Ask) :
    (r.take ask).2.overruns = r.overruns + if ask.Overruns r.stream then 1 else 0 := by
  simp only [take, note, ← served?_eq_none_iff]
  cases r.served? ask.request <;> rfl

theorem furthest_take (r : Replay) (ask : Ask) :
    ((r.take ask).2.furthest : Int) = max (r.furthest : Int) (ask.position + 1) := by
  simp only [take, note, Ask.request]
  omega

/-! ## Draws one after another -/

/-- The counters have no influence on what draws come to. -/
theorem takeAll_answers (r : Replay) (asks : List Ask) :
    (r.takeAll asks).1 = asks.map fun ask => ((start r.seed r.stream).take ask).1 := by
  induction asks generalizing r with
  | nil => rfl
  | cons ask rest ih =>
    have hrest := ih (r.take ask).2
    simp only [takeAll, List.map_cons, hrest]
    rfl

theorem takeAll_record (r : Replay) (asks : List Ask) :
    (r.takeAll asks).2.seed = r.seed ∧ (r.takeAll asks).2.stream = r.stream := by
  induction asks generalizing r with
  | nil => exact ⟨rfl, rfl⟩
  | cons ask rest ih => exact ih (r.take ask).2

/-- Noting all requests after the draws moves the counters as noting each with its draw does. -/
theorem takeAll_noteAll (r : Replay) (asks : List Ask) :
    (r.takeAll asks).2 = r.noteAll (asks.map Ask.request) := by
  induction asks generalizing r with
  | nil => rfl
  | cons ask rest ih => exact ih (r.take ask).2

theorem overruns_takeAll (r : Replay) (asks : List Ask) :
    (r.takeAll asks).2.overruns =
      r.overruns + asks.countP fun ask => decide (ask.Overruns r.stream) := by
  induction asks generalizing r with
  | nil => rfl
  | cons ask rest ih =>
    have hrest := ih (r.take ask).2
    rw [overruns_take] at hrest
    rw [List.countP_cons, takeAll]
    simp only [decide_eq_true_eq]
    refine hrest.trans ?_
    change r.overruns + _ + rest.countP (fun ask => decide (ask.Overruns r.stream)) = _
    omega

/-- The furthest position is the greatest of where it was before and the positions behind those of
the draws. -/
theorem furthest_takeAll (r : Replay) (asks : List Ask) :
    IsGreatest {n : Int | n = r.furthest ∨ ∃ ask ∈ asks, n = ask.position + 1}
      (r.takeAll asks).2.furthest := by
  induction asks generalizing r with
  | nil =>
    refine ⟨.inl rfl, ?_⟩
    rintro n (rfl | ⟨ask, hask, -⟩)
    · exact le_refl _
    · cases hask
  | cons ask rest ih =>
    obtain ⟨hreached, hbound⟩ := ih (r.take ask).2
    rw [furthest_take] at hreached
    have hfirst := hbound (.inl (furthest_take r ask).symm)
    have hbefore := (le_max_left (r.furthest : Int) (ask.position + 1)).trans hfirst
    have hask := (le_max_right (r.furthest : Int) (ask.position + 1)).trans hfirst
    constructor
    · rcases hreached with hreached | ⟨other, hother, hreached⟩
      · rcases max_choice (r.furthest : Int) (ask.position + 1) with hmax | hmax
        · exact .inl (hreached.trans hmax)
        · exact .inr ⟨ask, List.mem_cons_self .., hreached.trans hmax⟩
      · exact .inr ⟨other, List.mem_cons_of_mem _ hother, hreached⟩
    · rintro n (rfl | ⟨other, hother, rfl⟩)
      · exact hbefore
      · rcases List.mem_cons.1 hother with rfl | hother
        · exact hask
        · exact hbound (.inr ⟨other, hother, rfl⟩)

theorem remaining_eq (r : Replay) :
    (r.remaining : Int) = max 0 ((r.stream.size : Int) - r.furthest) := by
  unfold remaining
  omega

/-- Draws that are made of a replay since it was reset, at any positions, come to numbers in their
ranges and to the positions behind theirs, and would come to the same after any other draws and
with any other counters. The counters may be kept with each draw or after all of them. The replay
counts those draws as overruns that the record has no value for, it notes the furthest position
behind a draw, and there remains as much of the record as lies behind that. -/
theorem takeAll_counted (r : Replay) (asks : List Ask) :
    List.Forall₂ (Ask.Answered r.seed r.stream) asks (r.reset.takeAll asks).1 ∧
      (∀ (earlier : List Ask) (overruns furthest : Nat),
        (((Replay.mk r.seed r.stream overruns furthest).takeAll earlier).2.takeAll asks).1 =
          (r.reset.takeAll asks).1) ∧
      (r.reset.takeAll asks).2 = r.reset.noteAll (asks.map Ask.request) ∧
      (r.reset.takeAll asks).2.overruns =
        asks.countP (fun ask => decide (ask.Overruns r.stream)) ∧
      IsGreatest {n : Int | n = 0 ∨ ∃ ask ∈ asks, n = ask.position + 1}
        (r.reset.takeAll asks).2.furthest ∧
      ((r.reset.takeAll asks).2.remaining : Int) =
        max 0 ((r.stream.size : Int) - (r.reset.takeAll asks).2.furthest) := by
  have hanswers : List.Forall₂ (Ask.Answered r.seed r.stream) asks (r.reset.takeAll asks).1 := by
    rw [takeAll_answers, List.forall₂_map_right_iff]
    exact List.forall₂_same.2 fun ask _ => answered _ ask
  refine ⟨hanswers, fun earlier overruns furthest => ?_, r.reset.takeAll_noteAll asks, ?_,
    r.reset.furthest_takeAll asks, ?_⟩
  · obtain ⟨hseed, hstream⟩ :=
      (Replay.mk r.seed r.stream overruns furthest).takeAll_record earlier
    rw [takeAll_answers, takeAll_answers, hseed, hstream]
    rfl
  · rw [overruns_takeAll]
    exact Nat.zero_add _
  · rw [remaining_eq, (r.reset.takeAll_record asks).2]
    rfl

/-- In front of the record, twice at a value that does not fit, once at one that does, and behind the
record. -/
example :
    let r := ((start 9 #[20, 3]).takeAll
      ([-1, 0, 0, 1, 5].map fun position => ⟨position, 1, 6, by decide⟩)).2
    (r.overruns, r.furthest, r.remaining) = (4, 6, 0) := by
  decide +kernel

end Replay
end RandomTables
