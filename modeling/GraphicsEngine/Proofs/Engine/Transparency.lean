import GraphicsEngine.Proofs.Engine.Likeness
import GraphicsEngine.Proofs.Engine.Restoration
import GraphicsEngine.Proofs.Engine.Waiting
import Mathlib.Data.List.Forall2

/-! An engine that loads what another one has saved goes on as the other one would. What was counted
before is not saved and steers nothing.
-/

namespace GraphicsEngine

-----------------------------------------------------------------------------------------
-- What is the same
-----------------------------------------------------------------------------------------

/-- The counters of both have grown by as much, or both have been cleared. -/
inductive Stats.GrowAlike (left left' right right' : Stats)
    : Operation → Prop
  | grown {operation : Operation} (growth : Stats) (grown : left' = left.add growth)
    (grown' : right' = right.add growth)
    : GrowAlike left left' right right' operation
  | cleared (cleared : left' = {}) (cleared' : right' = {})
    : GrowAlike left left' right right' .reset

/-- Two episodes of one operation that are the same in all that a program, a renderer or a
receiver of interrupts is told, and after which the engines say and save the same. The counters
grow by as much.
-/
structure Episode.Same (left right : Episode)
    : Prop where
  operation : right.operation = left.operation
  answer : right.outcome.answer = left.outcome.answer
  fetches : right.outcome.trace.fetches = left.outcome.trace.fetches
  events : right.outcome.trace.events = left.outcome.trace.events
  raised : right.outcome.trace.raised = left.outcome.trace.raised
  delivered : right.outcome.trace.delivered = left.outcome.trace.delivered
  drawSync : right.outcome.engine.drawSync = left.outcome.engine.drawSync
  listSync : right.outcome.engine.listSync = left.outcome.engine.listSync
  save : right.outcome.engine.save = left.outcome.engine.save
  counters
    : left.before.stats.GrowAlike left.outcome.engine.stats right.before.stats
        right.outcome.engine.stats left.operation

-----------------------------------------------------------------------------------------
-- Counters steer nothing
-----------------------------------------------------------------------------------------

/-- Only what has been counted is overlooked, as long as the counters grow by as much. -/
def Oversight.counters (origin other : Stats)
    : Oversight where
  between registers others := others = registers
  during registers others := others = registers
  counted stats counts := ∃ growth, stats = origin.add growth ∧ counts = other.add growth
  offset same := congrArg _ same
  announcement same := by rw [same]
  charge _ _ same := by rw [same]
  setOffset _ same := by rw [same]
  setPrevious _ same := by rw [same]
  finish same := by rw [same]
  add growth := by
    intro holds
    obtain ⟨before, rfl, rfl⟩ := holds
    exact ⟨before.add growth, Stats.add_assoc .., Stats.add_assoc ..⟩
  refl _ := rfl
  takeUp _ same := by rw [same]
  present same := by rw [same]
  launch _ same := by rw [same]
  land same := same
  settle := by
    intro registers _ _ _ same counted
    obtain ⟨before, rfl, rfl⟩ := counted
    rw [same]
    exact ⟨before.add { totalCycles := registers.cycles }, Stats.add_assoc .., Stats.add_assoc ..⟩

namespace Engine

variable {engine other : Engine} {host : Host} {operation : Operation} {outcome : Outcome Answer}

/-- Engines that differ in their counters are alike, since nothing has been counted since. -/
theorem alike_counters (same : other = { engine with stats := other.stats })
    : engine.Alike (.counters engine.stats other.stats) other := by
  rw [same]
  exact ⟨rfl, rfl, rfl, rfl, rfl, rfl, ⟨{}, by simp, by simp⟩⟩

/-- Engines that are alike but for their counters differ in nothing else. -/
theorem Alike.eq {origin others : Stats} (alike : engine.Alike (.counters origin others) other)
    (queue : other.queue = engine.queue)
    : other = { engine with stats := other.stats } := by
  obtain ⟨config, current, nextId, cache, registers, interrupts, -⟩ := alike
  cases other
  dsimp only at config queue current nextId cache registers interrupts
  rw [config, queue, current, nextId, cache, registers, interrupts]

/-- Engines that differ in their counters do the same, and then again differ in their counters. -/
theorem perform_same (same : other = { engine with stats := other.stats })
    (performed : operation.perform host engine = some outcome)
    : ∃ likewise, operation.perform host other = some likewise
        ∧ likewise.engine = { outcome.engine with stats := likewise.engine.stats }
        ∧ Episode.Same ⟨operation, engine, outcome⟩ ⟨operation, other, likewise⟩ := by
  by_cases resetting : operation = .reset
  · subst resetting
    cases performed
    have config : other.config = engine.config := by rw [same]
    have reset : other.reset = engine.reset := by rw [reset, reset, config]
    refine ⟨_, by rw [Operation.perform, reset], rfl, ?_⟩
    exact ⟨rfl, rfl, rfl, rfl, rfl, rfl, rfl, rfl, rfl, .cleared rfl rfl⟩
  · have alike := alike_counters same
    have queue : other.queue = engine.queue := by rw [same]
    obtain ⟨likewise, performed, alike⟩ :=
      Operation.perform_alike resetting alike queue performed
    have differ := alike.engine.eq alike.queue
    obtain ⟨growth, grown, grown'⟩ := alike.engine.stats
    refine ⟨likewise, performed, differ, ?_⟩
    exact {
      operation := rfl
      answer := alike.answer
      fetches := Trace.fetches_of_effects alike.effects
      events := Trace.events_of_effects alike.effects
      raised := Trace.raised_of_effects alike.effects
      delivered := Trace.delivered_of_effects alike.effects
      drawSync := funext fun mode => Operation.drawSync_alike alike.engine alike.queue mode
      listSync := funext fun id => funext fun mode => Operation.listSync_alike alike.queue id mode
      save := by
        rw [differ]
        rfl
      counters := .grown growth grown grown'
    }

/-- Engines that differ in their counters do the same over a whole series of operations. -/
theorem performAll_same {requests : List Request} {episodes : List Episode}
    (same : other = { engine with stats := other.stats })
    (performed : engine.performAll requests = some episodes)
    : ∃ others, other.performAll requests = some others
        ∧ List.Forall₂ Episode.Same episodes others := by
  induction requests generalizing engine other episodes with
  | nil =>
      cases performed
      exact ⟨[], rfl, .nil⟩
  | cons request rest ih =>
      obtain ⟨outcome, others, first, later, rfl⟩ := performAll_cons_eq_some_iff.mp performed
      obtain ⟨likewise, first', same, alike⟩ := perform_same same first
      obtain ⟨behind, later', alikes⟩ := ih same later
      exact ⟨_, performAll_cons_eq_some_iff.mpr ⟨likewise, behind, first', later', rfl⟩,
        .cons alike alikes⟩

/-- An engine that has loaded what a reachable one has saved does the same as that one would, over
every series of operations that come to an end.
-/
theorem performAll_of_load_save {config : Config} {bytes : Bytes} {loading : Outcome Unit}
    {requests : List Request} {episodes : List Episode}
    (reachable : engine.Reachable config) (saved : engine.save = .ok bytes)
    (configured : other.config = config) (loaded : other.load bytes = .ok loading)
    (performed : engine.performAll requests = some episodes)
    : ∃ others, loading.engine.performAll requests = some others
        ∧ List.Forall₂ Episode.Same episodes others := by
  have restored := load_of_save reachable.sound saved loaded
  have kept : { engine with config := other.config } = engine := by
    rw [configured, ← reachable.config_eq]
  exact performAll_same (by rw [restored, ← kept]) performed

/-- The engine with a waiting list can be reached. -/
theorem waiting_reachable
    : waiting.Reachable {} :=
  .perform .initial perform_waiting

/-- Every engine can load what the engine with a waiting list has saved. -/
theorem waiting_restorable (other : Engine)
    : ∃ bytes outcome, waiting.save = .ok bytes ∧ other.load bytes = .ok outcome :=
  (restorable_iff waiting_reachable.sound).mpr
    ⟨⟨by decide, by decide, by simp [waiting, capture, DisplayList.toRecord, DisplayList.fresh]⟩,
      by decide, List.forall_mem_singleton.mpr (by decide)⟩

/-- A new engine that has loaded the waiting list lets it run on as the first engine does. -/
theorem performAll_of_load_save_waiting
    : ∃ bytes loading episodes others,
        waiting.Reachable {} ∧ waiting.save = .ok bytes ∧ (initial {}).config = {}
        ∧ (initial {}).load bytes = .ok loading
        ∧ waiting.performAll [⟨blankHost, .moveStall 1 0x08000008⟩, ⟨blankHost, .drain⟩]
          = some episodes
        ∧ loading.engine.performAll [⟨blankHost, .moveStall 1 0x08000008⟩, ⟨blankHost, .drain⟩]
          = some others
        ∧ List.Forall₂ Episode.Same episodes others := by
  obtain ⟨bytes, loading, saved, loaded⟩ := waiting_restorable (initial {})
  obtain ⟨episodes, performed⟩ :=
    Option.isSome_iff_exists.mp
      (show (waiting.performAll
        [⟨blankHost, .moveStall 1 0x08000008⟩, ⟨blankHost, .drain⟩]).isSome from rfl)
  obtain ⟨others, performed', same⟩ :=
    performAll_of_load_save waiting_reachable saved rfl loaded performed
  exact ⟨bytes, loading, episodes, others, waiting_reachable, saved, rfl, loaded, performed,
    performed', same⟩

/-- A reset takes as much off a counter as it held, which is not the same for an engine and for
another one that has loaded what it has saved.
-/
theorem reset_shrinks_counters_unevenly
    : ∃ bytes loading outcome outcome',
        waiting.Reachable {} ∧ waiting.save = .ok bytes ∧ (initial {}).config = {}
        ∧ (initial {}).load bytes = .ok loading
        ∧ Operation.reset.perform blankHost waiting = some outcome
        ∧ Operation.reset.perform blankHost loading.engine = some outcome'
        ∧ (outcome.engine.stats.started : Int) - waiting.stats.started = -1
        ∧ (outcome'.engine.stats.started : Int) - loading.engine.stats.started = 0 := by
  obtain ⟨bytes, loading, saved, loaded⟩ := waiting_restorable (initial {})
  have restored := load_of_save waiting_reachable.sound saved loaded
  refine ⟨bytes, loading, _, _, waiting_reachable, saved, rfl, loaded, rfl, rfl, rfl, ?_⟩
  rw [restored]
  rfl

end Engine

end GraphicsEngine
