import GraphicsEngine.Engine.Basic

/-! The execution of one display list, command by command. `Execution.step` makes one turn of the
fetch cycle; `Execution.run` repeats it until the list stalls or is done with.
-/

namespace GraphicsEngine

/-- How a list's time at the front of the queue ended. -/
inductive Ending where
  /-- It was completed before. -/
  | skipped
  /-- Its next command lies outside memory. -/
  | unmapped
  /-- It waits at its stall address. -/
  | stalled
  /-- It carried out a FINISH. -/
  | completed
  /-- A command could not be read, or a return led outside memory. -/
  | aborted
deriving DecidableEq, Repr

/-- All that a running list reads and changes. -/
structure Execution where
  list : DisplayList
  registers : Registers
  cache : CommandCache
  interrupts : Interrupts
  stats : Stats
deriving DecidableEq

/-- What carrying out a command led to. -/
structure Reaction where
  execution : Execution
  trace : List Occurrence := []
  /-- The list is done with and runs no further. -/
  ending : Option Ending := none

/-- Where a turn of the fetch cycle led to. -/
inductive Progress where
  | running (execution : Execution) (trace : List Occurrence)
  | ended (ending : Ending) (execution : Execution) (trace : List Occurrence)

namespace Execution

/-- The address that a 24-bit operand stands for: BASE gives its upper bits, and the offset
register is added.
-/
def target (execution : Execution) (operand : UInt32)
    : Address :=
  Address.mask (execution.registers.offset + (execution.cache.base ||| operand))

/-- Counts the cycles up to the current command. -/
def charge (execution : Execution)
    : Execution :=
  { execution with
    registers := execution.registers.charge execution.list.pc execution.list.pc }

/-- Counts the cycles up to the current command and moves to where the next step leads to the
target.
-/
def transfer (execution : Execution) (target : Address)
    : Execution :=
  { execution with
    registers := execution.registers.charge execution.list.pc (target - 4)
    list := { execution.list with pc := target - 4 } }

/-- The current list raises an interrupt, if it has a channel and interrupts are enabled. -/
def raise (execution : Execution)
    : Execution × List Occurrence :=
  if execution.list.channel < 0 || !execution.interrupts.enabled then
    (execution, [])
  else
    let (interrupts, trace) := execution.interrupts.raise
      { list := execution.list.id
        pc := execution.list.pc
        channel := execution.list.channel
        token := execution.list.token }
    ({ execution with
      interrupts
      stats := { execution.stats with interrupts := execution.stats.interrupts + 1 } }, trace)

/-- Goes on at the target, if it is mapped. -/
def jump (memory : Memory) (execution : Execution) (operand : UInt32)
    : Reaction :=
  let target := execution.target operand
  if memory.isMapped target then
    { execution := execution.transfer target, trace := [.event (.jump target)] }
  else
    { execution, trace := [.notice (.jumpSkipped execution.list.id target operand)] }

/-- Goes on at the target and remembers the next address, if the target is mapped and the stack has
room.
-/
def call (memory : Memory) (execution : Execution) (operand : UInt32)
    : Reaction :=
  let target := execution.target operand
  let returnAddress := Address.mask (execution.list.pc + 4)
  if memory.isMapped target then
    match execution.list.push? returnAddress with
    | none => { execution, trace := [.notice (.stackFull execution.list.id)] }
    | some list =>
        { execution := { execution with list }.transfer target
          trace := [.event (.call target returnAddress)] }
  else
    { execution, trace := [.notice (.callSkipped execution.list.id target operand)] }

/-- Goes back to the address remembered last. If that is not mapped the list is done with. -/
def ret (memory : Memory) (execution : Execution)
    : Reaction :=
  match execution.list.pop? with
  | none => { execution, trace := [.notice (.stackEmpty execution.list.id)] }
  | some (returnAddress, list) =>
      let target := (execution.list.pc &&& 0xF0000000) ||| returnAddress.mask
      let execution := { execution with list }.transfer target
      if memory.isMapped target then
        { execution, trace := [.event (.ret target)] }
      else
        { execution :=
            { execution with registers := { execution.registers with finished := true } }
          trace := [.notice (.returnLost execution.list.id target)]
          ending := some .aborted }

/-- Carries out the SIGNAL right before an END. -/
def signal (execution : Execution) (announced : Word) (operand : UInt32)
    : Reaction :=
  let behavior := Word.middle announced
  let token := Word.low announced
  let endData := Word.low operand
  let (execution, raised) := Execution.raise { execution with
    list := { execution.list with token := token.toUInt32, signal := behavior } }
  { execution
    trace :=
      .notice (.signalled execution.list.id behavior token endData)
        :: .event (.signal behavior token endData) :: raised }

/-- Carries out the FINISH right before an END: the list has reached its end. -/
def finish (execution : Execution) (announced : Word)
    : Reaction :=
  let token := Word.low announced
  let (execution, raised) := Execution.raise { execution with
    list := { execution.list with state := .completed, token := token.toUInt32 }
    registers := { execution.registers with finished := true } }
  { execution, trace := .event (.finish token) :: raised, ending := some .completed }

/-- An END carries out what the command before it announced. -/
def endMark (execution : Execution) (operand : UInt32)
    : Reaction :=
  let execution := execution.charge
  let announced := execution.registers.previous
  match Word.opcode announced with
  | Opcode.signal => execution.signal announced operand
  | Opcode.finish => execution.finish announced
  | _ =>
      { execution
        trace := [.notice (.bareEnd execution.list.id (Word.operand announced))] }

def setOffset (execution : Execution) (offset : Address)
    : Reaction :=
  { execution := { execution with registers := { execution.registers with offset } } }

/-- Carries out a command. The renderer is given what does not steer the engine, with the bits that
changed since the last command of the same opcode.
-/
def perform (memory : Memory) (execution : Execution) (difference : UInt32)
    : Command → Reaction
  | .nop => { execution }
  | .jump operand => execution.jump memory operand
  | .call operand => execution.call memory operand
  | .ret => execution.ret memory
  | .endMark operand => execution.endMark operand
  | .signal => { execution }
  | .finish => { execution }
  | .offset operand => execution.setOffset (operand <<< 8)
  | .origin => execution.setOffset execution.list.pc
  | .render opcode operand =>
      { execution, trace := [.event (.execute opcode operand difference)] }

/-- Keeps a fetched word in the cache and counts it. -/
def recordWord (execution : Execution) (word : Word)
    : Execution :=
  { execution with
    cache := execution.cache.put word
    stats := { execution.stats with commands := execution.stats.commands + 1 } }

/-- Moves on to the next word, which has the given word before it. -/
def advance (execution : Execution) (word : Word)
    : Execution :=
  { execution with
    list := { execution.list with pc := Address.mask (execution.list.pc + 4) }
    registers := { execution.registers with previous := word } }

def fetchTrace (traceCommands : Bool) (execution : Execution) (word : Word)
    : List Occurrence :=
  let fetched := Occurrence.fetched execution.list.pc word
  if traceCommands then
    [fetched, .notice (.fetched execution.list.id execution.list.pc word)]
  else
    [fetched]

/-- Carries out a fetched word and moves on to the next one. -/
def dispatch (memory : Memory) (traceCommands : Bool) (execution : Execution) (word : Word)
    : Progress :=
  let difference := execution.cache.difference word
  let fetched := execution.fetchTrace traceCommands word
  let reaction := (execution.recordWord word).perform memory difference (Command.ofWord word)
  let next := reaction.execution.advance word
  let trace := fetched ++ reaction.trace
  match reaction.ending with
  | none => .running next trace
  | some ending => .ended ending next.charge trace

/-- One turn of the fetch cycle: a list that has reached its stall address stops, any other carries
out its next command.
-/
def step (memory : Memory) (traceCommands : Bool) (execution : Execution)
    : Progress :=
  if execution.list.isStalled then
    .ended .stalled execution.charge []
  else
    match memory.readWord execution.list.pc with
    | .ok word => execution.dispatch memory traceCommands word
    | .error error =>
        .ended .aborted
          (charge { execution with registers := { execution.registers with finished := true } })
          [.notice (.unreadable execution.list.id execution.list.pc error)]

/-- Repeats the fetch cycle until it ends, for as many turns as there is fuel; none when the fuel
runs out first. What happens is added to the trace.
-/
def run (memory : Memory) (traceCommands : Bool)
    : (fuel : Nat) → Execution → Trace → Option (Ending × Execution × Trace)
  | 0, _, _ => none
  | fuel + 1, execution, trace =>
      match execution.step memory traceCommands with
      | .running next seen => run memory traceCommands fuel next (trace ++ seen)
      | .ended ending last seen => some (ending, last, trace ++ seen)

end Execution

end GraphicsEngine
