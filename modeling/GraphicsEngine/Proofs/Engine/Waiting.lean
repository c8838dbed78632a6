import GraphicsEngine.Proofs.Engine.Operations
import GraphicsEngine.Proofs.Memory.History

/-! A list that has stalled waits undisturbed while the engine is occupied with other things, as
long as the address at which it waits is mapped.
-/

namespace GraphicsEngine

-----------------------------------------------------------------------------------------
-- Occupations that leave a waiting list alone
-----------------------------------------------------------------------------------------

namespace Operation

/-- The operation neither runs the queue nor replaces it. -/
def isQuiet
    : Operation → Bool
  | beginService | setInterrupts _ | drawSync _ | listSync _ _ => true
  | dequeueList _ | continueQueue | breakQueue _ => true
  | enqueue _ _ _ _ | moveStall _ _ | drain | endService | reset | load _ => false

/-- The operation runs the queue, but neither puts a list in front nor moves the stall address of
one.
-/
inductive Disregards (engine : Engine)
    : Operation → Prop
  | drain : Disregards engine .drain
  | joinBehind (list stall : Address) (channel : Int32)
    : Disregards engine (.enqueue list stall channel false)
  | moveUnknown (id : ListId) (stall : Address) (unknown : id ∉ Queue.ids engine.queue)
    : Disregards engine (.moveStall id stall)
  | endService : Disregards engine .endService

/-- The list that an operation adds to the queue, if it adds one. -/
def joining (engine : Engine)
    : Operation → List DisplayList
  | enqueue list stall channel _ => [.fresh engine.nextId list stall channel]
  | _ => []

/-- The interrupts that an operation delivers before anything else. -/
def delivers (engine : Engine)
    : Operation → List Interrupt
  | endService => engine.interrupts.pending.toList
  | _ => []

/-- What an operation that runs the queue answers when the queue does not run empty. -/
def unfinished (engine : Engine)
    : Operation → Answer
  | enqueue _ _ _ _ => .enqueued engine.nextId
  | moveStall _ _ => .done
  | _ => .drained false

end Operation

/-- Where cycles are counted up to an address already, counting them again changes nothing. -/
theorem Registers.charge_checkpoint {registers : Registers} {pc : Address}
    (counted : registers.checkpoint = pc)
    : registers.charge pc pc = registers := by
  subst counted
  simp [charge]

namespace Engine

/-- The queue did not run empty when it was run last, and nothing but quiet operations came since.
-/
inductive LeftWaiting
    : Engine → Prop
  | drained {engine : Engine} {host : Host} {trace : Trace} {outcome : Outcome Bool}
    (drained : engine.drainInto host trace = some outcome) (waits : outcome.answer = false)
    : LeftWaiting outcome.engine
  | quiet {engine : Engine} {host : Host} {operation : Operation} {outcome : Outcome Answer}
    (left : LeftWaiting engine) (quiet : operation.isQuiet)
    (performed : operation.perform host engine = some outcome)
    : LeftWaiting outcome.engine

/-- The list is at the front of the queue, is the current one and waits at its stall address. -/
structure Waits (engine : Engine) (list : DisplayList) (rest : Queue)
    : Prop where
  queue : engine.queue = list :: rest
  current : engine.current = some list.id
  running : list.state = .running
  stalled : list.isStalled

variable {engine ready : Engine} {host : Host} {operation : Operation} {list : DisplayList}
  {rest : Queue} {before : Trace} {answer : Bool → Answer}

/-- A queue that did not run empty has a waiting list at its front. -/
theorem waits_of_drainInto {trace : Trace} {outcome : Outcome Bool}
    (drained : engine.drainInto host trace = some outcome) (waits : outcome.answer = false)
    : ∃ list rest, outcome.engine.Waits list rest := by
  obtain ⟨final, seen, drains, settled, -⟩ := drainInto_eq_some_iff.mp drained
  rw [waits] at drains
  rcases drains.front with ⟨emptied, -, -⟩ | ⟨_, list, rest, _, later, after, _, stopped⟩
  · cases emptied
  · obtain ⟨-, -, visits, rfl⟩ := stopped
    have current : after.current = some later.id := by
      rw [visits.settings.2.2, visits.continues.id]
    rw [settled]
    exact ⟨later, rest, rfl, current, visits.stalled.2, visits.stalled.1⟩

/-- Where the queue was left waiting a list waits at the front. -/
theorem LeftWaiting.waits (left : LeftWaiting engine)
    : ∃ list rest, engine.Waits list rest := by
  induction left with
  | drained drained waits => exact waits_of_drainInto drained waits
  | quiet _ quiet performed ih =>
      obtain ⟨list, rest, waits⟩ := ih
      cases Operation.performs_of_perform performed with
      | drains readies => cases readies <;> cases quiet
      | resets | loads => cases quiet
      | serves | sets | rests => exact ⟨list, rest, { waits with }⟩

-----------------------------------------------------------------------------------------
-- Running the queue anew
-----------------------------------------------------------------------------------------

/-- A list that stands where it waits, at a mapped address, is found stalled when the queue is run,
and nothing else happens. If it has not run before, it counts as started.
-/
theorem drainInto_of_stalled (front : engine.queue = list :: rest)
    (unfinished : list.state ≠ .completed) (stalled : list.isStalled)
    (mapped : host.memory.isMapped list.pc) (fueled : 0 < host.fuel) (trace : Trace)
    : engine.drainInto host trace
      = some {
          answer := false
          engine :=
            { engine with
              queue := { list with state := .running } :: rest
              current := some list.id
              registers := { checkpoint := list.pc, startingTicks := host.ticks }
              stats := { engine.stats with
                started := engine.stats.started + if list.state = .queued then 1 else 0
                stalls := engine.stats.stalls + 1 } }
          trace := trace ++ [Occurrence.notice (.starting list.id list.pc list.stall),
            Occurrence.notice (.stalled list.id)] } := by
  let launched := ((engine.takeUp host.ticks).present list).launch list
  have ran : Execution.Runs host.memory engine.config.traceCommands host.fuel launched .stalled
      launched.charge [] := by
    refine Execution.runs_of_stalled ?_ fueled
    exact stalled
  have visits : Visits host (engine.takeUp host.ticks) list .stalled launched.charge.list
      ((((engine.takeUp host.ticks).present list).land launched.charge).count .stalled)
      ([] ++ [.notice (.stalled list.id)]) :=
    .stalls unfinished mapped ran
  have drains : Drains host (list :: rest) (engine.takeUp host.ticks) false _ _ :=
    .stays visits
  rw [← front] at drains
  have counted : launched.registers.checkpoint = launched.list.pc := rfl
  have kept : launched.charge = launched := by
    rw [Execution.charge, Registers.charge_checkpoint counted]
  refine drainInto_eq_some_iff.mpr ⟨_, _, drains, ?_, rfl⟩
  rw [kept]
  by_cases queued : list.state = .queued
  all_goals simp [launched, launch, present, takeUp, land, count, Stats.count, settle, queued]

/-- A waiting list at a mapped address is found waiting when the queue is run, and nothing else
happens.
-/
theorem drainInto_of_waits (front : engine.queue = list :: rest) (running : list.state = .running)
    (stalled : list.isStalled) (mapped : host.memory.isMapped list.pc) (fueled : 0 < host.fuel)
    (trace : Trace)
    : engine.drainInto host trace
      = some {
          answer := false
          engine :=
            { engine with
              current := some list.id
              registers := { checkpoint := list.pc, startingTicks := host.ticks }
              stats := { engine.stats with stalls := engine.stats.stalls + 1 } }
          trace := trace ++ [Occurrence.notice (.starting list.id list.pc list.stall),
            Occurrence.notice (.stalled list.id)] } := by
  have same : { list with state := .running } = list := by rw [← running]
  rw [drainInto_of_stalled front (by simp [running]) stalled mapped fueled, same, ← front]
  simp [running]

/-- Running a queue whose first list cannot go on takes the list off and counts it as aborted. -/
theorem drainInto_of_unmapped (front : engine.queue = list :: rest)
    (running : list.state = .running) (unmapped : ¬host.memory.isMapped list.pc) {trace : Trace}
    {outcome : Outcome Bool} (drained : engine.drainInto host trace = some outcome)
    : Queue.ids outcome.engine.queue <:+ Queue.ids rest
      ∧ engine.stats.aborted < outcome.engine.stats.aborted := by
  obtain ⟨final, seen, drains, settled, -⟩ := drainInto_eq_some_iff.mp drained
  rw [front] at drains
  rw [settled]
  generalize outcome.answer = answer at drains
  cases drains with
  | leaves visits leaving drains =>
      refine ⟨drains.ids_suffix, Nat.lt_of_lt_of_le ?_ drains.aborted_le⟩
      cases visits with
      | skips completed => simp [running] at completed
      | misses => exact Nat.lt_succ_self _
      | runs _ mapped => exact absurd mapped unmapped
  | stays visits =>
      cases visits with
      | runs _ mapped => exact absurd mapped unmapped

/-- An operation that disregards a waiting list leaves it at the front of the queue to be run. -/
theorem Waits.readied (waits : engine.Waits list rest) (disregards : operation.Disregards engine)
    : ∃ ready before answer,
        operation.Readies engine ready before answer
        ∧ answer false = operation.unfinished engine
        ∧ ready.queue = list :: (rest ++ operation.joining engine)
        ∧ ready.stats = engine.stats
        ∧ Occurrence.effects before.toList = (operation.delivers engine).map .delivered := by
  cases disregards with
  | drain => exact ⟨_, _, _, .drain, rfl, by simp [waits.queue, Operation.joining], rfl, rfl⟩
  | joinBehind list stall channel =>
      refine ⟨_, _, _, .enqueue list stall channel false, rfl, ?_, rfl, rfl⟩
      simp [join, waits.queue, Queue.pushBack, Operation.joining]
  | moveUnknown id stall unknown =>
      refine ⟨_, _, _, .moveStall id stall, rfl, ?_, rfl, rfl⟩
      rw [Queue.moveStall_of_notMem unknown, waits.queue]
      simp [Operation.joining]
  | endService =>
      exact ⟨_, _, _, .endService, rfl, by simp [waits.queue, Operation.joining], rfl,
        Trace.effects_map_delivered engine.interrupts.pending⟩

/-- A list that was left waiting at a mapped address stays as it is while the queue is run for other
reasons: no word is fetched, the renderer is told nothing, and no interrupt reaches its receiver but
those that had been waiting. A list that waits where no memory is leaves the queue as aborted.
-/
theorem LeftWaiting.undisturbed (left : engine.LeftWaiting)
    (disregards : operation.Disregards engine) (fueled : 0 < host.fuel)
    : ∃ list rest, engine.Waits list rest
        ∧ (host.memory.isMapped list.stall
          → ∃ outcome, operation.perform host engine = some outcome
              ∧ outcome.answer = operation.unfinished engine
              ∧ outcome.engine.Waits list (rest ++ operation.joining engine)
              ∧ outcome.engine.stats = { engine.stats with stalls := engine.stats.stalls + 1 }
              ∧ outcome.trace.fetches = []
              ∧ outcome.trace.events = []
              ∧ outcome.trace.raised = []
              ∧ outcome.trace.delivered = operation.delivers engine)
        ∧ (¬host.memory.isMapped list.stall
          → ∀ outcome, operation.perform host engine = some outcome
            → Queue.ids outcome.engine.queue <:+ Queue.ids (rest ++ operation.joining engine)
              ∧ engine.stats.aborted < outcome.engine.stats.aborted) := by
  obtain ⟨list, rest, waits⟩ := left.waits
  obtain ⟨ready, before, answer, readies, answered, front, stats, effects⟩ :=
    waits.readied disregards
  have standing : list.pc = list.stall := by simpa [DisplayList.isStalled] using waits.stalled
  refine ⟨list, rest, waits, fun mapped => ?_, fun unmapped outcome performed => ?_⟩
  · have drained := drainInto_of_waits front waits.running waits.stalled (standing ▸ mapped)
      fueled before
    let seen := before ++ [Occurrence.notice (.starting list.id list.pc list.stall),
      Occurrence.notice (.stalled list.id)]
    have shown : Occurrence.effects seen.toList = (operation.delivers engine).map .delivered := by
      simp [seen, effects]
    refine ⟨_, by rw [readies.perform, drained]; rfl, answered,
      ⟨front, rfl, waits.running, waits.stalled⟩, ?_, Trace.of_effects_eq_delivered shown⟩
    simp only [Operation.answerWith, stats]
  · rw [readies.perform] at performed
    obtain ⟨drained, ran, rfl⟩ := Option.map_eq_some_iff.mp performed
    rw [← stats]
    exact drainInto_of_unmapped front waits.running (standing ▸ unmapped) ran

/-- Blank memory, in which every command is a NOP. -/
def blankHost : Host :=
  { memory := .blank 0x100, ticks := 7, fuel := 8 }

/-- A machine with words at the beginning of its scratchpad. -/
def hostWith (words : List Word)
    : Host :=
  { memory := (Memory.blank 0x100).afterStore (.words 0x00010000 words)
    ticks := 7
    fuel := 16 }

/-- An engine whose only list waits at its first command. -/
def waiting : Engine :=
  { config := {}
    queue := [{ DisplayList.fresh 1 0x08000000 0x08000000 (-1) with state := .running }]
    current := some 1
    nextId := 2
    registers := { checkpoint := 0x08000000, startingTicks := 7 }
    interrupts := { enabled := true }
    stats := { started := 1, stalls := 1 } }

/-- A list that waits at its first command can have joined a new engine. -/
theorem perform_waiting
    : (Operation.enqueue 0x08000000 0x08000000 (-1) false).perform blankHost (initial {})
      = some {
          answer := .enqueued 1
          engine := waiting
          trace := #[.notice (.enqueued (.fresh 1 0x08000000 0x08000000 (-1)) false),
            .notice (.starting 1 0x08000000 0x08000000), .notice (.stalled 1)] } :=
  rfl

/-- The engine with a waiting list, while an interrupt waits as well. -/
def waitingServed : Engine :=
  { waiting with
    interrupts := { enabled := true, serving := true, pending := #[⟨1, 0x08000010, 2, 5⟩] } }

/-- The end of service delivers the interrupt that waits and leaves the list waiting. -/
theorem undisturbed_endService
    : waitingServed.LeftWaiting ∧ Operation.endService.Disregards waitingServed
      ∧ 0 < blankHost.fuel
      ∧ ∃ list rest, waitingServed.Waits list rest ∧ blankHost.memory.isMapped list.stall
          ∧ ∃ outcome, Operation.endService.perform blankHost waitingServed = some outcome
              ∧ outcome.answer = .drained false
              ∧ outcome.engine.Waits list rest
              ∧ outcome.engine.stats = { waiting.stats with stalls := 2 }
              ∧ outcome.trace.fetches = []
              ∧ outcome.trace.events = []
              ∧ outcome.trace.raised = []
              ∧ outcome.trace.delivered = [⟨1, 0x08000010, 2, 5⟩] := by
  have drained : Engine.drainInto { waitingServed with stats := { started := 1 } } blankHost #[]
      = some {
          answer := false
          engine := waitingServed
          trace := #[.notice (.starting 1 0x08000000 0x08000000), .notice (.stalled 1)] } := rfl
  have left : waitingServed.LeftWaiting := .drained drained rfl
  have fueled : 0 < blankHost.fuel := by decide
  obtain ⟨list, rest, waits, undisturbed, -⟩ := left.undisturbed .endService fueled
  have front := waits.queue
  cases front
  have mapped : blankHost.memory.isMapped 0x08000000 := by decide
  exact ⟨left, .endService, fueled, _, _, waits, mapped, undisturbed mapped⟩

/-- An engine whose only list waits right behind the last word of a region. -/
def waitingBehindRegion : Engine :=
  { config := {}
    queue :=
      [{ DisplayList.fresh 1 0x00013FFC 0x00014000 (-1) with
        pc := 0x00014000, state := .running }]
    current := some 1
    nextId := 2
    registers := { cycles := 1, checkpoint := 0x00014000, startingTicks := 7 }
    interrupts := { enabled := true }
    stats := { started := 1, stalls := 1, commands := 1, totalCycles := 1 } }

/-- A list can come to wait there by its last word, which is a NOP. -/
theorem drainInto_behind_region
    : ((initial {}).join 0x00013FFC 0x00014000 (-1) false).drainInto blankHost #[]
      = some {
          answer := false
          engine := waitingBehindRegion
          trace := #[.notice (.starting 1 0x00013FFC 0x00014000), .fetched 0x00013FFC 0,
            .notice (.stalled 1)] } := by
  let joined := (initial {}).join 0x00013FFC 0x00014000 (-1) false
  let front := DisplayList.fresh 1 0x00013FFC 0x00014000 (-1)
  let begun := ((joined.takeUp 7).present front).launch front
  let later := { begun.recordWord 0 with list := { begun.list with pc := 0x00014000 } }
  let stalled := (((joined.takeUp 7).present front).land later.charge).count .stalled
  have word : blankHost.memory.readWord 0x00013FFC = .ok 0 := Memory.readWord_blank (by decide)
  have mapped : blankHost.memory.isMapped 0x00013FFC := by decide
  have stepped : begun.step blankHost.memory false = .running later [.fetched 0x00013FFC 0] := by
    have goesOn : begun.list.isStalled = false := rfl
    have advanced : (begun.recordWord 0).advance 0 = later :=
      congrArg (fun pc => { begun.recordWord 0 with list := { begun.list with pc } })
        (show Address.mask (begun.list.pc + 4) = 0x00014000 by decide)
    simp only [Execution.step, goesOn, Bool.false_eq_true, if_false]
    rw [show begun.list.pc = 0x00013FFC from rfl, word, ← advanced]
    rfl
  have runs : Execution.Runs blankHost.memory false 8 begun .stalled later.charge
      [.fetched 0x00013FFC 0] :=
    (Execution.runs_of_stalled rfl (by decide)).turn stepped
  have drains : Drains blankHost joined.queue (joined.takeUp blankHost.ticks) false _ _ :=
    .stays (.stalls (by decide) mapped runs)
  have settled : settle { stalled with queue := [later.list] } = waitingBehindRegion := by
    rw [settle, waitingBehindRegion, Engine.mk.injEq]
    exact ⟨rfl, rfl, rfl, rfl, rfl, by decide, rfl, by decide⟩
  exact settled ▸ drains.drainInto #[]

/-- A list that waits right behind the last word of a region is aborted when the queue is run. -/
theorem disturbed_behind_region
    : waitingBehindRegion.LeftWaiting
      ∧ Operation.drain.Disregards waitingBehindRegion
      ∧ ∃ list, waitingBehindRegion.Waits list []
          ∧ ∃ outcome, Operation.drain.perform blankHost waitingBehindRegion = some outcome
              ∧ outcome.answer = .drained true
              ∧ outcome.engine.queue = []
              ∧ outcome.engine.stats.aborted = 1 :=
  ⟨.drained drainInto_behind_region rfl, .drain, _, ⟨rfl, rfl, rfl, rfl⟩, _, rfl, rfl, rfl, rfl⟩

end Engine

end GraphicsEngine
