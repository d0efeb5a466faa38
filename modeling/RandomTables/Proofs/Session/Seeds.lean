import Mathlib.Data.List.Chain
import RandomTables.Proofs.Roll.Drawn
import RandomTables.Proofs.Roller.InGroups
import RandomTables.Proofs.Roller.Run
import RandomTables.Proofs.Session.Basic

/-!
# The seeds of a session

Each call of a session starts from the seed that the call before it left, and draws one value for
each die that it logs. So all draws of a session are made one after another, and with the mixing
source their seeds are those of one counter: a call moves the counter on by as many draws as it logs
dice, and no seed is used twice (`nodup_seeds`).

It makes no difference which rollers the calls use, over which registries and limits, nor whether
the tree that a part of is rolled again is the newest one.
-/
namespace RandomTables

namespace Session

/-- One more call of a session that draws from this source: a reference is rolled, or a part of a
tree is rolled again. -/
inductive Calls (source : Source) (x y : Session) : Prop
  | resolve (r : Roller) (directory : Text) (context : Context) (ref : Reference)
    (now : Timestamp)
    (hcall : x.call? now ((r.drawingFrom source).resolve directory context ref) = some y)
  | reroll (r : Roller) (path : IndexPath) (tree : Node) (context : Context) (now : Timestamp)
    (roll : Roll Node) (hroll : (r.drawingFrom source).reroll path tree context = .ok roll)
    (hcall : x.call? now roll = some y)

end Session

/-! ## Rolling parts of the newest tree again -/

namespace Roller
open Session (Calls)
variable {r : Roller} {source : Source} {context : Context} {clock : Nat → Timestamp}

theorem calls_of_rerollNewest? {x y : Session} {path : IndexPath}
    (h : (r.drawingFrom source).rerollNewest? context clock x path = some y) :
    Calls source x y := by
  unfold rerollNewest? at h
  split at h
  · cases h
  · next tree htree =>
    split at h
    · next roll hroll => exact .reroll r path tree context _ roll hroll h
    · cases h

theorem chain_of_rerolls {paths : List IndexPath} {x y : Session}
    (h : paths.foldlM ((r.drawingFrom source).rerollNewest? context clock) x = some y) :
    ∃ sessions, List.IsChain (Calls source) (x :: sessions) ∧
      (x :: sessions).getLast? = some y := by
  induction paths generalizing x with
  | nil => exact ⟨[], .singleton x, h⟩
  | cons path rest ih =>
    rw [List.foldlM_cons] at h
    obtain ⟨mid, hpath, hrest⟩ := Option.bind_eq_some_iff.1 h
    obtain ⟨sessions, hchain, hlast⟩ := ih hrest
    exact ⟨mid :: sessions, .cons_cons (calls_of_rerollNewest? hpath) hchain, hlast⟩

/-- The states of such a session, one after each call, are a session in the sense above. -/
theorem chain_of_session? {ref : Reference} {seed : Int} {paths : List IndexPath} {y : Session}
    (h : (r.drawingFrom source).session? context ref clock seed paths = some y) :
    ∃ sessions, List.IsChain (Calls source) (.start (clock 0) seed :: sessions) ∧
      sessions.getLast? = some y := by
  obtain ⟨first, hfirst, hrest⟩ := Option.bind_eq_some_iff.1 h
  obtain ⟨sessions, hchain, hlast⟩ := chain_of_rerolls hrest
  exact ⟨first :: sessions, .cons_cons (.resolve r "/" context ref _ hfirst) hchain, hlast⟩

end Roller

/-! ## What a session draws -/

namespace Session

/-- From `x` to `y` these draws are made, and these events are logged, whose dice are the values
that are drawn. -/
structure Draws (source : Source) (x : Session) (asked : List Request) (added : List Event)
    (y : Session) : Prop where
  requests : y.requests = x.requests ++ asked
  events : y.log.events.toList = x.log.events.toList ++ added
  draws : source.Draws x.seed asked (added.flatMap Event.rolls) y.seed

/-- A call that draws in groups logs what it draws. -/
theorem draws_of_call? {m : Source → Roll Node} (hm : Roll.InGroups m) {source : Source}
    {x y : Session} {now : Timestamp} (h : x.call? now (m source) = some y) :
    ∃ asked added, x.Draws source asked added y := by
  obtain ⟨tree, s, hrun, rfl⟩ := call?_eq_some_iff.1 h
  obtain ⟨bodies, asked, hlogs, hdraws⟩ := hm.draws hrun
  rw [← Event.map_body_numbered x.log.sequence now bodies, ← Event.flatMap_rolls] at hdraws
  refine ⟨asked, Event.numbered x.log.sequence now bodies, ?_, hlogs.events, hdraws.draws⟩
  have hrequests : s.requests.toList = asked := hdraws.requests
  rw [hrequests]

/-- Every call logs what it draws. -/
theorem Calls.draws {source : Source} {x y : Session} (h : Calls source x y) :
    ∃ asked added, x.Draws source asked added y := by
  cases h with
  | resolve r directory context ref now hcall =>
    exact draws_of_call? (r.resolve_inGroups directory context ref) hcall
  | reroll r path tree context now roll hroll hcall =>
    obtain ⟨rollFrom, hgroups, rfl⟩ :=
      Roller.exists_inGroups_of_ok (r.reroll_inGroups path tree context) hroll
    exact draws_of_call? hgroups hcall

/-- All draws of a session are made one after another. -/
theorem draws_of_chain {source : Source} {start : Session} {sessions : List Session}
    (hstart : start.requests = []) (h : List.IsChain (Calls source) (start :: sessions)) :
    ∀ y ∈ sessions, ∃ values, source.Draws start.seed y.requests values y.seed := by
  refine h.cons_induction (fun y => ∃ values, source.Draws start.seed y.requests values y.seed)
    sessions (fun x y hxy hx => ?_) ⟨[], by rw [hstart]; exact .nil _⟩
  obtain ⟨values, hvalues⟩ := hx
  obtain ⟨asked, added, hdraws⟩ := hxy.draws
  exact ⟨_, by rw [hdraws.requests]; exact hvalues.append hdraws.draws⟩

/-- From `x` to `y` the counter of the mixing source is moved on by one draw for each die in the
events that are logged, and each of these dice is the value drawn at its position. -/
structure Advances (x : Session) (asked : List Request) (added : List Event) (y : Session) :
    Prop where
  requests : y.requests = x.requests ++ asked
  events : y.log.events.toList = x.log.events.toList ++ added
  length : asked.length = (added.flatMap Event.rolls).length
  seed : y.seed = SplitMix.seedAfter x.seed (added.flatMap Event.rolls).length
  value : ∀ (i : Nat) (die : Int), (added.flatMap Event.rolls)[i]? = some die →
    ∃ span : Span, asked[i]? = some ⟨SplitMix.seedAfter x.seed i, span.low, span.high⟩ ∧
      die = (SplitMix.draw (SplitMix.seedAfter x.seed i) span).1

theorem Draws.advances {x y : Session} {asked : List Request} {added : List Event}
    (h : x.Draws SplitMix.source asked added y) : x.Advances asked added y where
  requests := h.requests
  events := h.events
  length := h.draws.length_eq
  seed := SplitMix.next_of_draws h.draws
  value _ _ := SplitMix.value_of_draws h.draws

/-- Each call of a session with the mixing source moves the counter on by exactly as many draws as
there are dice in the events that it logs, each of which is the value drawn at its position; and the
seeds that the source is handed in the whole session are pairwise different, as long as no more than
2 ^ 64 dice are drawn. The session may start from any seed and log, and mix calls of both kinds. -/
theorem nodup_seeds (start : Session) (sessions : List Session) (hstart : start.requests = [])
    (h : List.IsChain (Calls SplitMix.source) (start :: sessions)) :
    List.IsChain (fun x y => ∃ asked added, x.Advances asked added y) (start :: sessions) ∧
      ∀ y ∈ sessions, y.requests.length ≤ 2 ^ 64 → (y.requests.map Request.seed).Nodup := by
  refine ⟨h.imp fun x y hxy => ?_, fun y hy hlength => ?_⟩
  · obtain ⟨asked, added, hdraws⟩ := hxy.draws
    exact ⟨asked, added, hdraws.advances⟩
  · obtain ⟨values, hdraws⟩ := draws_of_chain hstart h y hy
    rw [SplitMix.seeds_of_draws hdraws]
    exact SplitMix.nodup_seedAfter start.seed hlength

/-- A hoard is rolled from a seed below zero, then one of its rows again and a gem in another. -/
theorem hoard_nodup_seeds :
    ∃ y sessions,
      (Roller.mk .hoard SplitMix.source 3).session? .root .hoard (fun _ => default) (-4)
        [[1], [0, 0]] = some y ∧
      List.IsChain (Calls SplitMix.source) (.start default (-4) :: sessions) ∧
      sessions.getLast? = some y ∧ 0 < y.requests.length ∧ y.requests.length ≤ 2 ^ 64 ∧
      (y.requests.map Request.seed).Nodup := by
  have hsome : ((Roller.mk .hoard SplitMix.source 3).session? .root .hoard (fun _ => default) (-4)
      [[1], [0, 0]]).any fun y => 0 < y.requests.length && y.requests.length ≤ 2 ^ 64 := by
    decide +kernel
  obtain ⟨y, hy, hlength⟩ := (Option.any_eq_true _ _).1 hsome
  simp only [Bool.and_eq_true, decide_eq_true_eq] at hlength
  obtain ⟨sessions, hchain, hlast⟩ :=
    Roller.chain_of_session? (r := .mk .hoard SplitMix.source 3) hy
  have hseeds := nodup_seeds (.start default (-4)) sessions rfl hchain
  exact ⟨y, sessions, hy, hchain, hlast, hlength.1, hlength.2,
    hseeds.2 y (List.mem_of_getLast? hlast) hlength.2⟩

end Session
end RandomTables
