import GraphicsEngine.Proofs.Engine.Operations
import GraphicsEngine.Proofs.Engine.Waiting
import GraphicsEngine.Proofs.Execution.Forwarding

/-! What the renderer is given over a whole drain. The lists of a drain share one cache, so a word
is compared with the last one of its opcode even if that one stood in another list.
-/

namespace GraphicsEngine

namespace Engine

def intake (engine : Engine)
    : Intake :=
  ⟨engine.cache, engine.stats.commands⟩

variable {host : Host} {engine after final : Engine} {list later : DisplayList} {queue : Queue}
  {ending : Ending} {answer : Bool} {seen : List Occurrence}

@[simp] theorem count_intake (engine : Engine) (ending : Ending)
    : (engine.count ending).intake = engine.intake := by
  cases ending <;> rfl

/-- A list's time at the front keeps, counts and hands on all words that are fetched. -/
theorem Visits.forwards (visits : Visits host engine list ending later after seen)
    : engine.intake.Forwards after.intake seen := by
  cases visits with
  | skips => exact .of_silent rfl rfl
  | misses => exact .of_silent rfl rfl
  | @runs _ _ _ last seen ran =>
      have launched : ((engine.present list).launch list).intake = engine.intake := by
        simp only [launch, Execution.intake]
        split <;> rfl
      have landed : (((engine.present list).land last).count ending).intake = last.intake :=
        count_intake ..
      have words := filterMap_stalled
        (fun notice => (rfl : Occurrence.fetch? (.notice notice) = none)) ending seen list.id
      have events := filterMap_stalled
        (fun notice => (rfl : Occurrence.event? (.notice notice) = none)) ending seen list.id
      obtain ⟨executed, cache, commands⟩ := launched ▸ Execution.Runs.forwards ran
      refine ⟨?_, ?_, ?_⟩
      · rw [Occurrence.executed, Occurrence.words, words, events]
        exact executed
      · rw [Occurrence.words, words, landed]
        exact cache
      · rw [Occurrence.words, words, landed]
        exact commands

/-- Running a queue keeps, counts and hands on all words of all its lists, list by list. -/
theorem Drains.forwards (drains : Drains host queue engine answer final seen)
    : engine.intake.Forwards final.intake seen := by
  induction drains with
  | empty => exact .of_silent rfl rfl
  | leaves visits _ _ ih => exact (visits.forwards.trans ih).notice _
  | stays visits => exact visits.forwards.notice _

variable {operation : Operation} {outcome : Outcome Answer}

/-- Whatever runs the queue keeps, counts and hands on all words that are fetched. -/
theorem forwards_of_runsQueue (runs : operation.runsQueue)
    (performed : operation.perform host engine = some outcome)
    : engine.intake.Forwards outcome.engine.intake outcome.trace.toList := by
  obtain ⟨ready, before, answer, readies⟩ := Operation.exists_readies runs engine
  rw [readies.perform] at performed
  obtain ⟨drained, ran, rfl⟩ := Option.map_eq_some_iff.mp performed
  obtain ⟨final, seen, drains, settled, traced⟩ := drainInto_eq_some_iff.mp ran
  have took : (ready.takeUp host.ticks).intake = engine.intake := by
    cases readies <;> rfl
  have settles : (Operation.answerWith drained answer).engine.intake = final.intake := by
    rw [Operation.answerWith, settled]
    rfl
  have unread : Occurrence.words before.toList = [] := by
    rw [Occurrence.words_toList, Trace.words, readies.fetches]
    rfl
  have silent : Occurrence.executed before.toList = [] := by
    rw [Occurrence.executed_toList, readies.events]
    rfl
  have forwards : engine.intake.Forwards engine.intake before.toList := .of_silent unread silent
  have shown : (Operation.answerWith drained answer).trace.toList = before.toList ++ seen :=
    (congrArg Array.toList traced).trans (by simp)
  rw [settles, shown]
  exact forwards.trans (took ▸ Drains.forwards drains)

/-- Over a drain the renderer is handed just the words that do not steer the engine, in the order in
which they are fetched, each with the bits in which it differs from the word of its opcode that was
fetched last before it, or that was in the cache. In the end the cache holds the last word of every
opcode, and every word has been counted.
-/
theorem forwards_of_perform (runs : operation.runsQueue)
    (performed : operation.perform host engine = some outcome)
    : outcome.trace.events.filter Event.isExecute = engine.cache.forwarded outcome.trace.words
      ∧ (∀ opcode operand difference,
          .execute opcode operand difference ∈ outcome.trace.events → opcode.isControl = false)
      ∧ (∀ opcode,
          outcome.engine.cache.get opcode = engine.cache.latest outcome.trace.words opcode)
      ∧ outcome.engine.stats.commands = engine.stats.commands + outcome.trace.words.length := by
  obtain ⟨executed, cache, commands⟩ := forwards_of_runsQueue runs performed
  rw [Occurrence.words_toList] at executed cache commands
  rw [Occurrence.executed_toList] at executed
  refine ⟨executed, fun opcode operand difference told => ?_, fun opcode => ?_, commands⟩
  · have handed : .execute opcode operand difference ∈ engine.cache.forwarded outcome.trace.words :=
      executed ▸ List.mem_filter.mpr ⟨told, rfl⟩
    exact CommandCache.isControl_of_forwarded _ handed
  · rw [← CommandCache.get_putAll]
    exact congrArg (CommandCache.get · opcode) cache

/-- Two lists with commands of one opcode, among them a jump that leads nowhere. -/
def rendering : List Word :=
  [0x01000001, 0x08FFFFFC, 0x01000003, 0x0F000000, 0x0C000000, 0x01000002, 0x0F000000, 0x0C000000]

/-- An engine whose two lists have not run yet. -/
def untouched : Engine :=
  { initial {} with queue := [.fresh 1 0x00010000 0 (-1), .fresh 2 0x00010014 0 (-1)], nextId := 3 }

/-- The command of the second list is compared with the last one of the first. -/
theorem forwards_over_two_lists
    : Operation.drain.runsQueue
      ∧ ∃ outcome, Operation.drain.perform (hostWith rendering) untouched = some outcome
          ∧ outcome.trace.words = rendering
          ∧ outcome.trace.events.filter Event.isExecute
            = [.execute 0x01 1 0x01000001, .execute 0x01 3 2, .execute 0x01 2 1]
          ∧ outcome.engine.cache.get 0x01 = 0x01000002
          ∧ outcome.engine.cache.get Opcode.jump = 0x08FFFFFC
          ∧ outcome.engine.stats.commands = 8 := by
  have runs : Operation.drain.runsQueue := rfl
  have known : (Operation.drain.perform (hostWith rendering) untouched).map (·.trace.words)
      = some rendering := by decide +kernel
  obtain ⟨outcome, performed, words⟩ := Option.map_eq_some_iff.mp known
  obtain ⟨executed, -, cache, commands⟩ :=
    forwards_of_perform runs performed
  rw [words] at executed cache commands
  refine ⟨runs, outcome, performed, words, executed.trans ?_, (cache _).trans ?_,
    (cache _).trans ?_, commands⟩
  all_goals decide +kernel

end Engine

end GraphicsEngine
