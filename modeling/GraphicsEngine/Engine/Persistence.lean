import GraphicsEngine.Engine.Basic
import GraphicsEngine.Snapshot.Read
import GraphicsEngine.Snapshot.Write

/-! Saving the engine and loading it again. A snapshot is checked as a whole before anything of the
engine changes. The configuration and the counters are not part of it.
-/

namespace GraphicsEngine

namespace DisplayList

def toRecord (list : DisplayList)
    : Snapshot.ListRecord :=
  { id := list.id
    start := list.start
    pc := list.pc
    stall := list.stall
    state := list.state.code
    channel := list.channel
    token := list.token
    signal := list.signal
    stack := list.stack.reverse }

/-- The list that a record describes, if there can be such a list. Of several faults the first of
these counts: state, number, depth of the stack, addresses, channel.
-/
def ofRecord (record : Snapshot.ListRecord)
    : Except Snapshot.Error DisplayList :=
  match ListState.ofCode? record.state with
  | none => .error (.corrupt .unknownState)
  | some state =>
      if record.id = 0 then
        .error (.corrupt .reservedId)
      else if stackCapacity < record.stack.length then
        .error (.deepStack record.id record.stack.length)
      else if ¬(record.start.IsMasked ∧ record.pc.IsMasked ∧ record.stall.IsMasked
          ∧ record.stack.all (·.IsMasked)) then
        .error (.corrupt .foreignAddress)
      else if record.channel < -1 then
        .error (.corrupt .invalidChannel)
      else
        .ok {
          id := record.id
          start := record.start
          pc := record.pc
          stall := record.stall
          state
          channel := record.channel
          token := record.token
          signal := record.signal
          stack := record.stack.reverse }

end DisplayList

namespace Snapshot

/-- The last section of each kind that was handed on, while a snapshot is read. -/
structure Staged where
  engine : Option EngineRecord := none
  lists : List ListRecord := []
  cache : CommandCache := .blank

/-- A section takes the place of an earlier one of its kind. -/
def Staged.receive (staged : Staged)
    : Section → Staged
  | .engine record => { staged with engine := some record }
  | .lists records => { staged with lists := records }
  | .cache cache => { staged with cache }

def Staged.ofSections (sections : List Section)
    : Staged :=
  sections.foldl receive {}

/-- The queue that records describe. Every list has a number of its own, and one that was given out
before the next number to give out.
-/
def queueOfRecords (nextId : ListId) (seen : List ListId)
    : List ListRecord → Except Error Queue
  | [] => .ok []
  | record :: rest =>
      if record.id ∈ seen then
        .error (.duplicateList record.id)
      else if nextId ≤ record.id then
        .error (.corrupt .idAhead)
      else
        match DisplayList.ofRecord record with
        | .error error => .error error
        | .ok list =>
            match queueOfRecords nextId (record.id :: seen) rest with
            | .error error => .error error
            | .ok queue => .ok (list :: queue)

/-- A snapshot that an engine can take on. -/
structure Restoration where
  engine : EngineRecord
  queue : Queue
  cache : CommandCache

def Staged.check (staged : Staged)
    : Except Error Restoration :=
  match staged.engine with
  | none => .error (.corrupt .noEngine)
  | some record =>
      match queueOfRecords record.nextId [] staged.lists with
      | .error error => .error error
      | .ok queue =>
          if record.nextId = 0 then
            .error (.corrupt .noNextId)
          else
            .ok { engine := record, queue, cache := staged.cache }

end Snapshot

namespace Engine

def capture (engine : Engine)
    : Snapshot.Contents :=
  { engine :=
      { nextId := engine.nextId
        current := engine.current.getD 0
        serving := engine.interrupts.serving
        interruptsEnabled := engine.interrupts.enabled
        previous := engine.registers.previous
        finished := engine.registers.finished
        offset := engine.registers.offset
        cycles := engine.registers.cycles
        checkpoint := engine.registers.checkpoint
        startingTicks := engine.registers.startingTicks
        pending := engine.interrupts.pending.toList }
    lists := engine.queue.map DisplayList.toRecord
    cache := engine.cache }

/-- The bytes of a snapshot of the engine. -/
def save (engine : Engine)
    : Except Snapshot.Error Bytes :=
  Snapshot.save none engine.capture

/-- The snapshot that bytes hold, if an engine can take it on. -/
def examine (bytes : Bytes)
    : Except Snapshot.Error Snapshot.Restoration :=
  let reading := Snapshot.read bytes
  match reading.outcome with
  | .error error => .error error
  | .ok _ => (Snapshot.Staged.ofSections reading.sections).check

/-- The current list of a restored engine, if it is among the restored lists. -/
def resolveCurrent (queue : Queue) (current : ListId)
    : Option ListId :=
  if current ≠ 0 ∧ (Queue.position? queue current).isSome then some current else none

/-- The engine takes on a checked snapshot and keeps its configuration and counters. -/
def adopt (engine : Engine) (restoration : Snapshot.Restoration)
    : Engine :=
  let record := restoration.engine
  { engine with
    queue := restoration.queue
    current := resolveCurrent restoration.queue record.current
    nextId := record.nextId
    cache := restoration.cache
    registers :=
      { offset := record.offset
        previous := record.previous
        finished := record.finished
        cycles := record.cycles
        checkpoint := record.checkpoint
        startingTicks := record.startingTicks }
    interrupts :=
      { enabled := record.interruptsEnabled
        serving := record.serving
        pending := record.pending.toArray } }

/-- What is noticed when a snapshot is taken on: its current list may be none of its lists. -/
def adoptTrace (restoration : Snapshot.Restoration)
    : Trace :=
  let current := restoration.engine.current
  if current ≠ 0 ∧ (resolveCurrent restoration.queue current).isNone then
    #[.notice (.currentLost current)]
  else
    #[]

def load (engine : Engine) (bytes : Bytes)
    : Except Snapshot.Error (Outcome Unit) :=
  match examine bytes with
  | .error error => .error error
  | .ok restoration =>
      .ok {
        answer := ()
        engine := engine.adopt restoration
        trace := adoptTrace restoration }

end Engine

end GraphicsEngine
