import GraphicsEngine.Command.Cache
import GraphicsEngine.Queue
import GraphicsEngine.Trace

/-! The state of the engine: its queue, its registers, its interrupts and its counters. -/

namespace GraphicsEngine

/-- What is settled when an engine is built. -/
structure Config where
  /-- Lists may raise interrupts from the start. -/
  interruptsEnabled : Bool := true
  /-- A notice is given for every command that is read. -/
  traceCommands : Bool := false
deriving DecidableEq, Repr

/-- The registers that all lists share. -/
structure Registers where
  /-- What targets are counted from. -/
  offset : Address := 0
  /-- The command before the next one, zero at the start of a turn. -/
  previous : Word := 0
  /-- The last list that ran has reached its end. -/
  finished : Bool := false
  /-- Cycles counted since the queue was last taken up. -/
  cycles : UInt64 := 0
  /-- Cycles are counted up to here. -/
  checkpoint : Address := 0
  /-- The clock when the queue was last taken up. -/
  startingTicks : UInt64 := 0
deriving DecidableEq, Repr

/-- Counts one cycle for every word between the checkpoint and an address, and moves the checkpoint.
An address below the checkpoint counts as one far above it.
-/
def Registers.charge (registers : Registers) (pc checkpoint : Address)
    : Registers :=
  { registers with
    cycles := registers.cycles + ((pc - registers.checkpoint) / 4).toUInt64
    checkpoint }

/-- What the engine knows about the delivery of interrupts. -/
structure Interrupts where
  /-- Lists may raise interrupts. -/
  enabled : Bool
  /-- An interrupt is being served. -/
  serving : Bool := false
  /-- Interrupts that wait until the one being served is done, oldest first. -/
  pending : Array Interrupt := #[]
deriving DecidableEq, Repr

/-- An interrupt is delivered at once, or waits while another one is served. -/
def Interrupts.raise (interrupts : Interrupts) (interrupt : Interrupt)
    : Interrupts × List Occurrence :=
  if interrupts.serving then
    ({ interrupts with pending := interrupts.pending.push interrupt },
      [.raised interrupt, .notice (.deferred interrupt.list interrupt.token)])
  else
    (interrupts, [.raised interrupt, .delivered interrupt])

/-- What an engine has done over its life. Snapshots do not hold it. The cycles are added up modulo
2^64. The other counters go up by one at a time and are numbers without bound here: they stand for
64 bits that no engine lives long enough to use up.
-/
structure Stats where
  started : Nat := 0
  completed : Nat := 0
  /-- Lists that left the queue without reaching their end. -/
  aborted : Nat := 0
  stalls : Nat := 0
  commands : Nat := 0
  interrupts : Nat := 0
  /-- The cycles of all times that the queue was taken up. -/
  totalCycles : UInt64 := 0
deriving DecidableEq, Repr

/-- The engine. Memory is not part of it: every operation that runs lists is given the memory that
they stand in.
-/
structure Engine where
  config : Config
  queue : Queue := []
  /-- The list that was at the front last; none once the queue has run empty. -/
  current : Option ListId := none
  /-- The number that the next list gets. -/
  nextId : ListId := 1
  cache : CommandCache := .blank
  registers : Registers := {}
  interrupts : Interrupts
  stats : Stats := {}
deriving DecidableEq

namespace Engine

def initial (config : Config)
    : Engine :=
  { config, interrupts := { enabled := config.interruptsEnabled } }

/-- The first list in the queue with a number. -/
def list? (engine : Engine) (id : ListId)
    : Option DisplayList :=
  Queue.get? engine.queue id

/-- The current list, if it is in the queue. -/
def currentList? (engine : Engine)
    : Option DisplayList :=
  engine.current.bind engine.list?

/-- Lists may raise interrupts from now on, or may not. -/
def setInterrupts (engine : Engine) (enabled : Bool)
    : Engine :=
  { engine with interrupts := { engine.interrupts with enabled } }

/-- Interrupts wait from now on, since one is being served. -/
def beginService (engine : Engine)
    : Engine :=
  { engine with interrupts := { engine.interrupts with serving := true } }

end Engine

/-- What an operation gives back: its answer, the engine after it and what happened. -/
structure Outcome (α : Type) where
  answer : α
  engine : Engine
  trace : Trace

end GraphicsEngine
