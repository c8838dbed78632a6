import GraphicsEngine.Engine.Execution

/-! Draining: the lists in the queue run from the front, one after the other, until one of them
stalls or none is left.
-/

namespace GraphicsEngine

/-- What the machine around the engine gives to an operation that runs lists. -/
structure Host where
  memory : Memory
  /-- The clock when the operation starts. -/
  ticks : UInt64
  /-- How many turns of the fetch cycle a list may take before it is given up as endless. -/
  fuel : Nat

/-- A list after its time at the front of the queue, and the engine without it. -/
structure Visit where
  ending : Ending
  list : DisplayList
  engine : Engine
  trace : Trace

/-- A list leaves the queue after its time at the front, unless it stalled. -/
def Ending.leaves
    : Ending → Bool
  | stalled => false
  | _ => true

def Stats.count (stats : Stats)
    : Ending → Stats
  | .skipped => stats
  | .unmapped => { stats with aborted := stats.aborted + 1 }
  | .stalled => { stats with stalls := stats.stalls + 1 }
  | .completed => { stats with completed := stats.completed + 1 }
  | .aborted => { stats with aborted := stats.aborted + 1 }

namespace Engine

/-- A list comes to the front: it is the current one, and no register is left from the list
before.
-/
def present (engine : Engine) (list : DisplayList)
    : Engine :=
  { engine with
    current := some list.id
    registers := { engine.registers with previous := 0, finished := false, offset := 0 } }

/-- A list at the front that can run: it is running from now on, and counts as started if it was
waiting for its first turn.
-/
def launch (engine : Engine) (list : DisplayList)
    : Execution :=
  { list := { list with state := .running }
    registers := { engine.registers with checkpoint := list.pc }
    cache := engine.cache
    interrupts := engine.interrupts
    stats :=
      if list.state = .queued then
        { engine.stats with started := engine.stats.started + 1 }
      else
        engine.stats }

/-- The engine takes over what a list has changed. -/
def land (engine : Engine) (execution : Execution)
    : Engine :=
  { engine with
    registers := execution.registers
    cache := execution.cache
    interrupts := execution.interrupts
    stats := execution.stats }

/-- Counts how a list's time at the front ended. -/
def count (engine : Engine) (ending : Ending)
    : Engine :=
  { engine with stats := engine.stats.count ending }

/-- Runs a list until it stalls or is done with. -/
def visit (engine : Engine) (host : Host) (list : DisplayList) (trace : Trace)
    : Option Visit :=
  let engine := engine.present list
  if list.state = .completed then
    some { ending := .skipped, list, engine, trace }
  else if !host.memory.isMapped list.pc then
    some {
      ending := .unmapped
      list
      engine := engine.count .unmapped
      trace := trace.push (.notice (.unmappedStart list.id list.pc)) }
  else
    match (engine.launch list).run host.memory engine.config.traceCommands host.fuel trace with
    | none => none
    | some (ending, execution, trace) =>
        some {
          ending
          list := execution.list
          engine := (engine.land execution).count ending
          trace :=
            if ending = .stalled then trace.push (.notice (.stalled list.id)) else trace }

/-- Runs the list with a number, which changes where it stands in the queue. If there is none, it is
as if the list had been completed before.
-/
def interpret (engine : Engine) (host : Host) (id : ListId) (trace : Trace)
    : Option (Outcome Ending) :=
  match engine.list? id with
  | none =>
      some {
        answer := .skipped
        engine :=
          { engine with
            current := some id
            registers := { engine.registers with previous := 0, finished := false, offset := 0 } }
        trace }
  | some list =>
      match engine.visit host list trace with
      | none => none
      | some visit =>
          some {
            answer := visit.ending
            engine := { visit.engine with queue := engine.queue.replace id visit.list }
            trace := visit.trace }

/-- Runs the lists of a queue in order until one stalls, which stays in front of those behind it.
The answer is whether none is left. To go through the queue like this comes to finding each list by
its number and removing it by its number (`visitAll_by_number`).
-/
def visitAll (host : Host)
    : Queue → Engine → Trace → Option (Outcome Bool)
  | [], engine, trace =>
      some { answer := true, engine := { engine with queue := [], current := none }, trace }
  | list :: rest, engine, trace =>
      match engine.visit host list
        (trace.push (.notice (.starting list.id list.pc list.stall))) with
      | none => none
      | some visit =>
          if visit.ending.leaves then
            visitAll host rest visit.engine visit.trace
          else
            some {
              answer := false
              engine := { visit.engine with queue := visit.list :: rest }
              trace := visit.trace }

/-- The queue is taken up: the clock is noted and cycles are counted from zero. -/
def takeUp (engine : Engine) (ticks : UInt64)
    : Engine :=
  { engine with
    registers := { engine.registers with startingTicks := ticks, cycles := 0 } }

/-- The cycles since the queue was taken up are added to those of all times. -/
def settle (engine : Engine)
    : Engine :=
  { engine with
    stats := { engine.stats with
      totalCycles := engine.stats.totalCycles + engine.registers.cycles } }

/-- Runs the queue as far as it goes, and adds what happens to a trace. -/
def drainInto (engine : Engine) (host : Host) (trace : Trace)
    : Option (Outcome Bool) :=
  match visitAll host engine.queue (engine.takeUp host.ticks) trace with
  | none => none
  | some outcome => some { outcome with engine := outcome.engine.settle }

/-- Runs the queue as far as it goes. The answer is whether the queue is empty. -/
def drain (engine : Engine) (host : Host)
    : Option (Outcome Bool) :=
  engine.drainInto host #[]

end Engine

end GraphicsEngine
