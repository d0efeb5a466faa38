import RandomTables.Roller.Reroll

/-!
# Sessions

A session rolls a reference and then parts of the newest tree again, one call after another. Every
call starts from the seed and the log that the call before it left, at a time of its own, and a
session ends where a call fails.
-/
namespace RandomTables

/-- What the calls of a session have come to: the tree after each of them, the seed for the next
one, the log, and everything that the source was asked for. -/
structure Session where
  trees : List Node
  seed : Int
  log : RunLog
  requests : List Request

namespace Session

/-- Nothing has been called, and the log has just been emptied. -/
def start (now : Timestamp) (seed : Int) : Session := ⟨[], seed, .empty now, []⟩

/-- The session with one more call at the time `now`; nothing if the call fails. -/
def call? (x : Session) (now : Timestamp) (roll : Roll Node) : Option Session :=
  match roll.runFrom (.start now x.seed x.log) with
  | (.ok tree, s) => some ⟨x.trees ++ [tree], s.seed, s.log, x.requests ++ s.requests.toList⟩
  | (.error _, _) => none

theorem call?_eq_some_iff {x y : Session} {now : Timestamp} {roll : Roll Node} :
    x.call? now roll = some y ↔
      ∃ tree s, roll.runFrom (.start now x.seed x.log) = (.ok tree, s) ∧
        y = ⟨x.trees ++ [tree], s.seed, s.log, x.requests ++ s.requests.toList⟩ := by
  unfold call?
  cases hrun : roll.runFrom (.start now x.seed x.log) with
  | mk result s =>
    cases result with
    | error e => simp
    | ok tree =>
      constructor
      · intro h
        exact ⟨tree, s, rfl, (Option.some.inj h).symm⟩
      · rintro ⟨tree', s', h, rfl⟩
        obtain ⟨rfl, rfl⟩ : tree = tree' ∧ s = s' := by simpa using h
        rfl

end Session

namespace Roller

/-- The session after rolling one more part of its newest tree again. -/
def rerollNewest? (r : Roller) (context : Context) (clock : Nat → Timestamp) (x : Session)
    (path : IndexPath) : Option Session :=
  match x.trees.getLast? with
  | none => none
  | some tree =>
    match r.reroll path tree context with
    | .ok roll => x.call? (clock x.trees.length) roll
    | .error _ => none

/-- The session that rolls a reference and then the parts at some paths; call number `n` takes place
at `clock n`. -/
def session? (r : Roller) (context : Context) (ref : Reference) (clock : Nat → Timestamp)
    (seed : Int) (paths : List IndexPath) : Option Session := do
  let x ← (Session.start (clock 0) seed).call? (clock 0) (r.resolve "/" context ref)
  paths.foldlM (r.rerollNewest? context clock) x

end Roller
end RandomTables
