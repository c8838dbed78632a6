import GraphicsEngine.Proofs.Engine.Soundness
import GraphicsEngine.Proofs.Engine.Waiting
import GraphicsEngine.Proofs.Execution.Cycles

/-! A drain takes a cycle and counts a command for every word that it fetches, over all the lists
that it runs, and so do all the drains of a series of operations together.
-/

namespace GraphicsEngine.Engine

/-- From one engine to another as many cycles were taken as commands were counted, and none of
them has been added to those of all times.
-/
def Spends (engine after : Engine) (count : Nat)
    : Prop :=
  after.registers.cycles = engine.registers.cycles + UInt64.ofNat count
  ∧ after.stats.commands = engine.stats.commands + count
  ∧ after.stats.totalCycles = engine.stats.totalCycles

variable {host : Host} {engine after final : Engine} {list later : DisplayList} {queue : Queue}
  {ending : Ending} {answer : Bool} {seen : List Occurrence}

theorem count_spends (engine : Engine) (ending : Ending)
    : engine.Spends (engine.count ending) 0 := by
  cases ending <;> exact ⟨by simp [count], rfl, rfl⟩

theorem Spends.trans {first second third : Engine} {count more : Nat}
    (earlier : first.Spends second count) (behind : second.Spends third more)
    : first.Spends third (count + more) := by
  refine ⟨?_, ?_, behind.2.2.trans earlier.2.2⟩
  · rw [behind.1, earlier.1, UInt64.ofNat_add, UInt64.add_assoc]
  · rw [behind.2.1, earlier.2.1, Nat.add_assoc]

/-- A list's time at the front takes a cycle and counts a command for every word that is fetched. -/
theorem Visits.spends (visits : Visits host engine list ending later after seen)
    (masked : list.pc.IsMasked)
    : engine.Spends after (Occurrence.fetchCount seen) := by
  cases visits with
  | skips => exact ⟨by simp [present], rfl, rfl⟩
  | misses => exact (count_spends (engine.present list) .unmapped).imp_left fun same => same
  | @runs _ _ _ last seen ran =>
      let first := (engine.present list).launch list
      have aligned : first.Aligned := ⟨masked, 0, rfl⟩
      have cycles : first.cycles = engine.registers.cycles := by
        simp [first, launch, present, Execution.cycles, Execution.charge, Registers.charge]
      have launched : first.stats.commands = engine.stats.commands
          ∧ first.stats.totalCycles = engine.stats.totalCycles := by
        simp only [first, launch, present]
        split <;> exact ⟨rfl, rfl⟩
      obtain ⟨more, commands⟩ := Execution.Runs.cycles ran aligned
      obtain ⟨_, _, counted⟩ := Execution.Runs.stats ran
      have landed : engine.Spends ((engine.present list).land last)
          (Occurrence.fetchCount seen) := by
        refine ⟨more.trans (by rw [cycles]), commands.trans (by rw [launched.1]), ?_⟩
        rw [← launched.2, land, counted]
      rw [Occurrence.fetchCount, filterMap_stalled fun _ => rfl]
      exact landed.trans (count_spends _ ending)

/-- Running a queue takes a cycle and counts a command for every word, list by list. -/
theorem Drains.spends (drains : Drains host queue engine answer final seen)
    (masked : ∀ list ∈ queue, list.pc.IsMasked)
    : engine.Spends final (Occurrence.fetchCount seen) := by
  induction drains with
  | empty => exact ⟨by simp, rfl, rfl⟩
  | leaves visits _ _ ih =>
      rw [List.forall_mem_cons] at masked
      rw [Occurrence.fetchCount_notice, Occurrence.fetchCount_append]
      exact (visits.spends masked.1).trans (ih masked.2)
  | stays visits =>
      rw [List.forall_mem_cons] at masked
      exact visits.spends masked.1

/-- A drain takes a cycle and counts a command for every word that it fetches, and adds the cycles
to those of all times.
-/
theorem accounts_of_drainInto {trace : Trace} {outcome : Outcome Bool}
    (masked : ∀ list ∈ engine.queue, list.pc.IsMasked)
    (drained : engine.drainInto host trace = some outcome)
    : ∃ seen : List Occurrence,
        outcome.trace = trace ++ seen
        ∧ outcome.engine.registers.cycles = UInt64.ofNat (Occurrence.fetchCount seen)
        ∧ outcome.engine.stats.commands
          = engine.stats.commands + Occurrence.fetchCount seen
        ∧ outcome.engine.stats.totalCycles
          = engine.stats.totalCycles + UInt64.ofNat (Occurrence.fetchCount seen) := by
  obtain ⟨final, seen, drains, settled, traced⟩ := drainInto_eq_some_iff.mp drained
  obtain ⟨cycles, commands, total⟩ := Drains.spends drains masked
  have counted : final.registers.cycles = UInt64.ofNat (Occurrence.fetchCount seen) := by
    rw [cycles]
    exact UInt64.zero_add _
  rw [settled]
  refine ⟨seen, traced, counted, commands, ?_⟩
  rw [settle, counted, total]
  rfl

/-- A drain takes as many cycles as it counts commands, and adds them to those of all times. -/
theorem cycles_of_drainInto {trace : Trace} {outcome : Outcome Bool}
    (masked : ∀ list ∈ engine.queue, list.pc.IsMasked)
    (drained : engine.drainInto host trace = some outcome)
    : ∃ count : Nat, outcome.engine.registers.cycles = UInt64.ofNat count
        ∧ outcome.engine.stats.commands = engine.stats.commands + count
        ∧ outcome.engine.stats.totalCycles = engine.stats.totalCycles + UInt64.ofNat count := by
  obtain ⟨seen, -, accounts⟩ := accounts_of_drainInto masked drained
  exact ⟨_, accounts⟩

variable {operation : Operation} {ready : Engine} {before : Trace} {outcome : Outcome Answer}

/-- An operation that runs the queue takes a cycle and counts a command for every word that it
fetches, and leaves the lists at masked addresses.
-/
theorem accounts_of_readies {answer : Bool → Answer}
    (readies : operation.Readies engine ready before answer)
    (masked : ∀ list ∈ engine.queue, list.pc.IsMasked)
    (performed : operation.perform host engine = some outcome)
    : (∀ list ∈ outcome.engine.queue, list.pc.IsMasked)
      ∧ outcome.engine.registers.cycles = UInt64.ofNat outcome.trace.fetches.length
      ∧ outcome.engine.stats.commands = engine.stats.commands + outcome.trace.fetches.length
      ∧ outcome.engine.stats.totalCycles
        = engine.stats.totalCycles + UInt64.ofNat outcome.trace.fetches.length := by
  rw [readies.perform] at performed
  obtain ⟨drained, ran, rfl⟩ := Option.map_eq_some_iff.mp performed
  have standing : ∀ list ∈ ready.queue, list.pc.IsMasked :=
    readies.forall_mem masked (fun list _ _ => Address.isMasked_mask list) fun _ _ masked => masked
  refine ⟨?_, ?_⟩
  · obtain ⟨final, _, drains, settled, -⟩ := drainInto_eq_some_iff.mp ran
    rw [show (Operation.answerWith drained answer).engine = final.settle from settled]
    exact drains.forall_mem Visits.isMasked standing
  · obtain ⟨seen, traced, accounts⟩ := accounts_of_drainInto standing ran
    have fetched : (Operation.answerWith drained answer).trace.fetches.length
        = Occurrence.fetchCount seen := by
      rw [show (Operation.answerWith drained answer).trace = before ++ seen from traced,
        Trace.append_eq_append_toArray, Trace.fetches_append, readies.fetches,
        Trace.fetches_toArray, List.nil_append, Occurrence.fetchCount]
    rw [fetched, ← readies.stats]
    exact accounts

/-- The cycles of all operations of a series. -/
def cyclesOf (episodes : List Episode)
    : UInt64 :=
  episodes.foldr (fun episode others => episode.outcome.engine.registers.cycles + others) 0

/-- A series of operations that all run the queue takes as many cycles as it counts commands. -/
theorem cycles_of_performAll {requests : List Request} {episodes : List Episode}
    (running : ∀ request ∈ requests, ∀ engine,
      ∃ ready before answer, request.operation.Readies engine ready before answer)
    (masked : ∀ list ∈ engine.queue, list.pc.IsMasked)
    (performed : engine.performAll requests = some episodes)
    : ∃ count : Nat,
        cyclesOf episodes = UInt64.ofNat count
        ∧ (engine.after episodes).stats.commands = engine.stats.commands + count
        ∧ (engine.after episodes).stats.totalCycles
          = engine.stats.totalCycles + UInt64.ofNat count := by
  induction requests generalizing engine episodes with
  | nil =>
      cases performed
      exact ⟨0, rfl, rfl, by simp [Engine.after]⟩
  | cons request rest ih =>
      rw [List.forall_mem_cons] at running
      obtain ⟨outcome, episodes, first, later, rfl⟩ := performAll_cons_eq_some_iff.mp performed
      obtain ⟨ready, before, answer, readies⟩ := running.1 engine
      obtain ⟨masked, cycles, commands, total⟩ := accounts_of_readies readies masked first
      obtain ⟨more, sum, others, sums⟩ := ih running.2 masked later
      refine ⟨outcome.trace.fetches.length + more, ?_, others.trans ?_, sums.trans ?_⟩
      · rw [cyclesOf, List.foldr_cons, ← cyclesOf, sum, cycles, UInt64.ofNat_add]
      · rw [commands, Nat.add_assoc]
      · rw [total, UInt64.ofNat_add, UInt64.add_assoc]

-----------------------------------------------------------------------------------------
-- Engines that operations lead to
-----------------------------------------------------------------------------------------

/-- Every operation leaves the cycles of all times at the number of commands counted. -/
theorem totalCycles_of_perform (sound : engine.Sound)
    (balanced : engine.stats.totalCycles = UInt64.ofNat engine.stats.commands)
    (performed : operation.perform host engine = some outcome)
    : outcome.engine.stats.totalCycles = UInt64.ofNat outcome.engine.stats.commands := by
  cases Operation.performs_of_perform performed with
  | drains readies =>
      obtain ⟨-, -, commands, total⟩ :=
        accounts_of_readies readies (fun list member => (sound.lists list member).pc) performed
      rw [total, commands, balanced, UInt64.ofNat_add]
  | loads loaded =>
      obtain ⟨_, _, rfl, -, -⟩ := of_load loaded
      exact balanced
  | resets => rfl
  | serves | sets | rests => exact balanced

/-- In every engine that operations lead to, as many cycles have been taken in all as commands have
been counted, and whatever runs the queue takes as many cycles as it fetches words. Cycles are
counted modulo 2^64.
-/
theorem Reachable.accounted {config : Config} (reachable : engine.Reachable config)
    : engine.stats.totalCycles.toNat = engine.stats.commands % UInt64.size
      ∧ ∀ (host : Host) (operation : Operation) (outcome : Outcome Answer),
          operation.runsQueue
          → operation.perform host engine = some outcome
          → outcome.engine.registers.cycles.toNat = outcome.trace.fetches.length % UInt64.size
            ∧ outcome.engine.stats.commands
              = engine.stats.commands + outcome.trace.fetches.length := by
  refine ⟨?_, fun host operation outcome runs performed => ?_⟩
  · have balanced : engine.stats.totalCycles = UInt64.ofNat engine.stats.commands := by
      induction reachable with
      | initial => rfl
      | perform reachable performed ih =>
          exact totalCycles_of_perform reachable.sound ih performed
    rw [balanced]
    exact UInt64.toNat_ofNat'
  · obtain ⟨_, _, _, readies⟩ := Operation.exists_readies runs engine
    obtain ⟨-, cycles, commands, -⟩ := accounts_of_readies readies
      (fun list member => (reachable.sound.lists list member).pc) performed
    rw [cycles]
    exact ⟨UInt64.toNat_ofNat', commands⟩

/-- A waiting list takes two cycles for the two words that it is let go on over. -/
theorem accounted_moveStall
    : waiting.Reachable {}
      ∧ Operation.runsQueue (.moveStall 1 0x08000008)
      ∧ ∃ outcome, (Operation.moveStall 1 0x08000008).perform blankHost waiting = some outcome
          ∧ outcome.trace.fetches = [(0x08000000, 0), (0x08000004, 0)]
          ∧ outcome.engine.registers.cycles.toNat = 2
          ∧ outcome.engine.stats.commands = 2
          ∧ outcome.engine.stats.totalCycles.toNat = 2 := by
  have reachable : waiting.Reachable {} := .perform .initial perform_waiting
  have runs : Operation.runsQueue (.moveStall 1 0x08000008) := rfl
  have known : ((Operation.moveStall 1 0x08000008).perform blankHost waiting).map
      (·.trace.fetches) = some [(0x08000000, 0), (0x08000004, 0)] := by decide +kernel
  obtain ⟨outcome, performed, fetches⟩ := Option.map_eq_some_iff.mp known
  obtain ⟨cycles, commands⟩ := reachable.accounted.2 blankHost _ outcome runs performed
  rw [fetches] at cycles commands
  have total := (Reachable.perform reachable performed).accounted.1
  rw [commands] at total
  exact ⟨reachable, runs, outcome, performed, fetches, cycles, commands, total⟩

end GraphicsEngine.Engine
