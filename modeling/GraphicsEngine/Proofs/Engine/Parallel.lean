import GraphicsEngine.Proofs.Engine.Forwarding
import GraphicsEngine.Proofs.Execution.Parallel

/-! What lists leave behind for each other. Whatever was done before a list came to the front, the
list does the same, unless BASE was left to give other upper bits to targets. Beyond that only the
first command of every opcode tells the renderer what was in the cache.
-/

namespace GraphicsEngine

/-- The same happened twice, but for how the first command of an opcode differs from what was in the
cache.
-/
structure Trace.Parallel (seen others : Trace)
    : Prop where
  fetches : others.fetches = seen.fetches
  /-- All that the renderer was told is the same, but for the differences between commands. -/
  events : others.events.map Event.blurred = seen.events.map Event.blurred
  /-- A command behind another one of its opcode is the same with its difference. -/
  executed
    : ∀ index event,
        (seen.events.filter Event.isExecute)[index]? = some event
        → (∃ earlier ∈ (seen.events.filter Event.isExecute).take index,
            earlier.opcode? = event.opcode?)
        → (others.events.filter Event.isExecute)[index]? = some event
  raised : others.raised = seen.raised
  delivered : others.delivered = seen.delivered

namespace Engine

variable {host : Host} {left right after : Engine} {list later : DisplayList} {ending : Ending}
  {seen : List Occurrence}

/-- Two engines that differ in nothing that a list goes by. -/
structure Agrees (left right : Engine)
    : Prop where
  base : right.cache.get Opcode.base &&& 0x000F0000 = left.cache.get Opcode.base &&& 0x000F0000
  enabled : right.interrupts.enabled = left.interrupts.enabled
  serving : right.interrupts.serving = left.interrupts.serving

/-- A list starts in parallel in engines that agree, since all other registers that it reads are
cleared.
-/
theorem Agrees.launch (agrees : left.Agrees right) (list : DisplayList)
    : ((left.present list).launch list).Parallel (right.registers.cycles - left.registers.cycles)
        ((right.present list).launch list) where
  list := rfl
  offset := rfl
  previous := rfl
  checkpoint := rfl
  cycles := by
    rw [UInt64.add_comm]
    exact (UInt64.sub_add_cancel _ _).symm
  base := by
    rw [CommandCache.base, CommandCache.base]
    exact congrArg (fun bits : Word => bits <<< 8) agrees.base
  enabled := agrees.enabled
  serving := agrees.serving

/-- A list spends its time at the front in the same way in engines that agree. -/
theorem Visits.parallel (visits : Visits host left list ending later after seen)
    (agrees : left.Agrees right)
    : ∃ after' others,
        Visits host right list ending later after' others
        ∧ after'.registers.cycles - right.registers.cycles
          = after.registers.cycles - left.registers.cycles
        ∧ Occurrence.outline others = Occurrence.outline seen := by
  cases visits with
  | skips completed =>
      exact ⟨_, _, .skips completed, by simp [present], rfl⟩
  | misses waiting unmapped =>
      exact ⟨_, _, .misses waiting unmapped, by simp [present, count], rfl⟩
  | runs waiting mapped ran =>
      obtain ⟨stop, others, ran', parallel, outline⟩ :=
        ran.parallel (agrees.launch list) right.config.traceCommands
      have visits := Visits.runs waiting mapped ran'
      rw [parallel.list] at visits
      refine ⟨_, _, visits, ?_, ?_⟩
      · simp only [land, count, parallel.cycles]
        grind
      · split
        · rw [Occurrence.outline_append, Occurrence.outline_append, outline]
        · exact outline

/-- In two engines that agree on what BASE gives to targets and on the interrupts a list's time at
the front is the same: it ends in the same way and leaves the same list, with as many cycles
counted. The same words are fetched, the same interrupts are raised, and the renderer is told the
same in the same order, but for how the first command of every opcode differs from what was in the
cache.
-/
theorem visit_in_parallel (agrees : left.Agrees right) {trace : Trace} {visit : Visit}
    (visited : left.visit host list trace = some visit) (other : Trace)
    : ∃ visit', right.visit host list other = some visit'
        ∧ visit'.ending = visit.ending
        ∧ visit'.list = visit.list
        ∧ visit'.engine.registers.cycles - right.registers.cycles
          = visit.engine.registers.cycles - left.registers.cycles
        ∧ ∃ seen others : Trace, visit.trace = trace ++ seen ∧ visit'.trace = other ++ others
            ∧ seen.Parallel others := by
  obtain ⟨seen, visits, traced⟩ := visit_eq_some_iff.mp visited
  obtain ⟨after, others, visits', cycles, outline⟩ := visits.parallel agrees
  refine ⟨_, visits'.visit other, rfl, rfl, cycles, seen.toArray, others.toArray,
    traced.trans (Trace.append_eq_append_toArray trace seen),
    Trace.append_eq_append_toArray other others, ?_⟩
  have fetches := Occurrence.fetches_of_outline outline
  have words : Occurrence.words others = Occurrence.words seen := by
    rw [Occurrence.words, Occurrence.words, fetches]
  have executed := visits.forwards.executed
  have executed' := visits'.forwards.executed
  rw [words] at executed'
  rw [Occurrence.executed] at executed executed'
  exact {
    fetches := by rw [Trace.fetches_toArray, Trace.fetches_toArray, fetches]
    events := by
      rw [Trace.events_toArray, Trace.events_toArray, Occurrence.events_of_outline outline]
    raised := by
      rw [Trace.raised_toArray, Trace.raised_toArray, Occurrence.raised_of_outline outline]
    delivered := by
      simp only [Trace.delivered, List.filterMap_toArray, Occurrence.delivered_of_outline outline]
    executed := by
      rintro index event handed ⟨earlier, before, same⟩
      obtain ⟨opcode, selects⟩ :=
        Event.opcode?_of_isExecute (List.mem_filter.mp (List.mem_of_getElem? handed)).2
      rw [Trace.events_toArray, executed] at handed before
      rw [Trace.events_toArray, executed']
      exact CommandCache.forwarded_agrees left.cache right.cache _ handed
        ⟨opcode, selects, .inr ⟨earlier, before, same.trans selects⟩⟩
  }

/-- An engine that has run other lists before: the renderer was given a command, and BASE was set in
bits that do not count.
-/
def reused : Engine :=
  { initial {} with
    cache := (CommandCache.blank.put 0x01000007).put 0x10F0FFFF
    registers := { offset := 0x100, previous := 0x0F000000, finished := true, cycles := 5 }
    stats := { commands := 3, interrupts := 1 } }

/-- The first command is compared with the one that was left in the cache, and all else is the same.
-/
theorem visit_in_parallel_reused
    : (initial {}).Agrees reused
      ∧ ∃ visit, reused.visit (hostWith rendering) (.fresh 1 0x00010000 0 (-1)) #[] = some visit
          ∧ visit.ending = .completed
          ∧ visit.engine.registers.cycles = 10
          ∧ visit.trace.words = rendering.take 5
          ∧ visit.trace.events.map Event.blurred
            = [.execute 0x01 1 0, .execute 0x01 3 0, .finish 0]
          ∧ (visit.trace.events.filter Event.isExecute)[1]? = some (.execute 0x01 3 2) := by
  have agrees : (initial {}).Agrees reused := ⟨by decide +kernel, rfl, rfl⟩
  have known : ((initial {}).visit (hostWith rendering) (.fresh 1 0x00010000 0 (-1)) #[]).map
      (fun visit => (visit.ending, visit.engine.registers.cycles, visit.trace.words,
        visit.trace.events))
      = some (.completed, 5, rendering.take 5,
        [.execute 0x01 1 0x01000001, .execute 0x01 3 2, .finish 0]) := by decide +kernel
  obtain ⟨visit, visited, same⟩ := Option.map_eq_some_iff.mp known
  obtain ⟨visit', visited', ending, -, cycles, seen, others, traced, traced', parallel⟩ :=
    visit_in_parallel agrees visited #[]
  simp only [Prod.mk.injEq] at same
  obtain ⟨completed, counted, words, events⟩ := same
  have all : visit.trace = seen := traced.trans (by simp)
  have all' : visit'.trace = others := traced'.trans (by simp)
  rw [all] at words events
  rw [counted] at cycles
  refine ⟨agrees, visit', visited', ending.trans completed, ?_, ?_, ?_, ?_⟩
  · have before : reused.registers.cycles = 5 := rfl
    rw [before] at cycles
    rw [← UInt64.sub_add_cancel visit'.engine.registers.cycles 5, cycles]
    rfl
  · rw [all', Trace.words, parallel.fetches]
    exact words
  · rw [all', parallel.events, events]
    rfl
  · rw [all']
    refine parallel.executed 1 (.execute 0x01 3 2) ?_ ⟨.execute 0x01 1 0x01000001, ?_, rfl⟩
    · rw [events]
      rfl
    · rw [events]
      exact List.mem_cons_self

end Engine

end GraphicsEngine
