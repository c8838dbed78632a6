import GraphicsEngine.Proofs.Engine.Waiting
import GraphicsEngine.Proofs.Execution.Nesting

/-! Calls and returns of a list over its time at the front are last in, first out, and never more
than 32 deep. The return addresses that a list is left with are those that its calls and returns, as
the renderer is told of them, make of the ones that it came with.
-/

namespace GraphicsEngine.Engine

variable {host : Host} {engine after : Engine} {list later : DisplayList} {ending : Ending}
  {head : Execution} {seen : List Occurrence}

/-- A list comes to a loop head over its time at the front, when all that is given has been seen,
whether or not its time ever comes to an end.
-/
def Reaches (host : Host) (engine : Engine) (list : DisplayList) (head : Execution)
    (seen : List Occurrence)
    : Prop :=
  list.state ≠ .completed ∧ host.memory.isMapped list.pc
  ∧ ∃ heads, Execution.Passage host.memory engine.config.traceCommands
      ((engine.present list).launch list) heads seen head

/-- A list comes to a RET that leads to an address that is not mapped. -/
def LosesReturn (host : Host) (engine : Engine) (list : DisplayList)
    : Prop :=
  ∃ head seen, engine.Reaches host list head seen ∧ head.LosesReturn host.memory

/-- Up to every loop head the calls are what is told of them. -/
theorem Reaches.replay (reaches : engine.Reaches host list head seen) (placed : list.Placed)
    : replay? list.stack (seen.filterMap Occurrence.event?) = some head.list.stack
      ∧ head.list.Placed := by
  obtain ⟨-, -, _, passage⟩ := reaches
  exact passage.replay ⟨placed.pc, placed.stack, placed.shallow⟩

/-- Behind a list's time at the front the calls are what is told of them, but for a return address
that was lost.
-/
theorem Visits.replay (visits : Visits host engine list ending later after seen)
    (placed : list.Placed)
    : ∃ left, replay? list.stack (seen.filterMap Occurrence.event?) = some left
        ∧ ((¬engine.LosesReturn host list ∧ left = later.stack)
          ∨ (engine.LosesReturn host list ∧ ending = .aborted
            ∧ ∃ address, left = address :: later.stack ∧ ¬host.memory.isMapped address)) := by
  cases visits with
  | skips completed =>
      exact ⟨list.stack, rfl, .inl ⟨fun ⟨_, _, reaches, _⟩ => reaches.1 completed, rfl⟩⟩
  | misses _ unmapped =>
      exact ⟨list.stack, rfl, .inl ⟨fun ⟨_, _, reaches, _⟩ => unmapped reaches.2.1, rfl⟩⟩
  | @runs waiting mapped _ last seen ran =>
      rw [filterMap_stalled fun _ => rfl]
      obtain ⟨heads, head, early, late, passage, ended, fueled, rfl⟩ := id ran
      have launched : ((engine.present list).launch list).list.Placed :=
        ⟨placed.pc, placed.stack, placed.shallow⟩
      obtain ⟨reached, standing⟩ := passage.replay launched
      have led : replay? list.stack ((early ++ late).filterMap Occurrence.event?)
          = replay? head.list.stack (late.filterMap Occurrence.event?) := by
        rw [List.filterMap_append]
        exact replay?_append reached _
      rcases Execution.replay_of_ended standing ended with
        ⟨keeps, left⟩ | ⟨loses, aborted, left, lost⟩
      · refine ⟨_, led.trans left, .inl ⟨?_, rfl⟩⟩
        rintro ⟨other, happened, ⟨-, -, others, comes⟩, loses⟩
        -- A lost return address would be one more than is left.
        obtain ⟨came, placed⟩ := comes.replay launched
        obtain ⟨behind, rest, same⟩ := Execution.Runs.behind comes ran
        have ends := rest.ends_of_losesReturn placed loses
        rcases Execution.replay_of_ended placed ends with
          ⟨keeps, -⟩ | ⟨-, -, more, address, stack, -⟩
        · exact keeps loses
        · have all := led.trans left
          rw [same, List.filterMap_append] at all
          have deeper := ((replay?_append came _).trans more).symm.trans all
          rw [Option.some_inj, stack] at deeper
          exact List.cons_ne_self address last.list.stack deeper
      · obtain ⟨address, stack, unmapped⟩ := lost
        exact ⟨_, led.trans left, .inr ⟨⟨head, early, ⟨waiting, mapped, heads, passage⟩, loses⟩,
          aborted, address, stack, unmapped⟩⟩

/-- A call that is told of over a list's time at the front is told of at one of its loop heads. -/
theorem Visits.called {target back : Address}
    (visits : Visits host engine list ending later after seen) (placed : list.Placed)
    (told : .call target back ∈ seen.filterMap Occurrence.event?)
    : ∃ head early word, engine.Reaches host list head early
        ∧ host.memory.readWord head.list.pc = .ok word ∧ Word.opcode word = Opcode.call
        ∧ target = head.target (Word.operand word) ∧ back = Address.mask (head.list.pc + 4)
        ∧ host.memory.isMapped target := by
  cases visits with
  | skips | misses => cases told
  | runs waiting mapped ran =>
      rw [filterMap_stalled fun _ => rfl] at told
      have nesting : .call target back ∈ Occurrence.nestings _ := List.mem_filter.mpr ⟨told, rfl⟩
      obtain ⟨heads, early, head, passage, told⟩ := Execution.Runs.told ran nesting
      have reaches : engine.Reaches host list head early := ⟨waiting, mapped, heads, passage⟩
      obtain ⟨word, called⟩ := Execution.called_of_told (reaches.replay placed).2 told
      exact ⟨head, early, word, reaches, called⟩

/-- Whenever a list comes to a loop head, the calls that are open are what the calls and returns
that were told of make of the ones it came with: none was closed but the innermost, and never were
more than 32 open. A word that is read there opens a call or closes one just as `Nests` says, and
leads there. When the list's time at the front ends, the calls are what was told of them again, but
for a return address that was lost, and every call that was told of was a CALL to a mapped address
that returns to the next word.
-/
theorem nests_at_front (placed : list.Placed)
    : (∀ head early, engine.Reaches host list head early
        → replay? list.stack (early.filterMap Occurrence.event?) = some head.list.stack
          ∧ head.list.stack.length ≤ 32
          ∧ ∀ word, ¬head.list.isStalled → host.memory.readWord head.list.pc = .ok word
              → head.Nests host.memory word
                  (head.step host.memory engine.config.traceCommands).nestings
                  (head.step host.memory engine.config.traceCommands))
      ∧ ∀ trace visit, engine.visit host list trace = some visit
          → ∃ seen : Trace, visit.trace = trace ++ seen
              ∧ (∃ left, replay? list.stack seen.events = some left
                  ∧ ((¬engine.LosesReturn host list ∧ left = visit.list.stack)
                    ∨ (engine.LosesReturn host list ∧ visit.ending = .aborted
                      ∧ ∃ address, left = address :: visit.list.stack
                        ∧ ¬host.memory.isMapped address)))
              ∧ ∀ target back, .call target back ∈ seen.events
                  → host.memory.isMapped target
                    ∧ ∃ head early word, engine.Reaches host list head early
                      ∧ host.memory.readWord head.list.pc = .ok word
                      ∧ Word.opcode word = Opcode.call
                      ∧ target = head.target (Word.operand word)
                      ∧ back = Address.mask (head.list.pc + 4) := by
  refine ⟨fun head early reaches => ?_, fun trace visit visited => ?_⟩
  · obtain ⟨replayed, standing⟩ := reaches.replay placed
    exact ⟨replayed, standing.shallow,
      fun word waits fetched => Execution.nests_step waits fetched standing _⟩
  · obtain ⟨seen, visits, traced⟩ := visit_eq_some_iff.mp visited
    refine ⟨seen.toArray, traced.trans (Trace.append_eq_append_toArray trace seen), ?_, ?_⟩
    · rw [Trace.events_toArray]
      exact visits.replay placed
    · intro target back told
      rw [Trace.events_toArray] at told
      obtain ⟨head, early, word, reaches, fetched, called, leads, returns, mapped⟩ :=
        visits.called placed told
      exact ⟨mapped, head, early, word, reaches, fetched, called, leads, returns⟩

/-- A list that came with a return address outside memory. -/
def astray : DisplayList :=
  { DisplayList.fresh 1 0x00010000 0 (-1) with stack := [0x00020000] }

/-- A CALL, one to an address outside memory, and a RET for each. -/
def straying : List Word :=
  [0x0A01000C, 0x0AFFFFFC, 0x0B000000, 0x0B000000]

/-- The second CALL is passed over, and the second RET loses the return address that the list came
with.
-/
theorem nests_at_front_astray
    : astray.Placed
      ∧ ∃ visit, (initial {}).visit (hostWith straying) astray #[] = some visit
          ∧ visit.trace.events = [.call 0x0001000C 0x00010004, .ret 0x00010004]
          ∧ (initial {}).LosesReturn (hostWith straying) astray
          ∧ visit.ending = .aborted
          ∧ replay? astray.stack visit.trace.events = some (0x00020000 :: visit.list.stack) := by
  have masked : ∀ address ∈ astray.stack, address.IsMasked := by
    rw [astray, List.forall_mem_singleton]
    rfl
  have placed : astray.Placed := ⟨rfl, masked, by decide⟩
  have known : ((initial {}).visit (hostWith straying) astray #[]).map
      (fun visit => (visit.trace.events, visit.list.stack))
      = some ([.call 0x0001000C 0x00010004, .ret 0x00010004], []) := by decide +kernel
  obtain ⟨visit, visited, same⟩ := Option.map_eq_some_iff.mp known
  obtain ⟨events, stack⟩ := Prod.mk.inj same
  obtain ⟨seen, traced, ⟨left, replayed, outcome⟩, -⟩ :=
    (nests_at_front placed).2 #[] visit visited
  have all : visit.trace = seen := traced.trans (by simp)
  rw [← all, events] at replayed
  have remains : replay? astray.stack [.call 0x0001000C 0x00010004, .ret 0x00010004]
      = some [0x00020000] := by decide
  rw [remains] at replayed
  cases replayed
  rcases outcome with ⟨-, kept⟩ | ⟨loses, aborted, -⟩
  · rw [stack] at kept
    cases kept
  · exact ⟨placed, visit, visited, events, loses, aborted, by rw [events, stack, remains]⟩

end GraphicsEngine.Engine
