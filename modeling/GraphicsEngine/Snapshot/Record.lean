import GraphicsEngine.Command.Cache
import GraphicsEngine.Snapshot.Reader
import GraphicsEngine.Snapshot.Writer

/-! The four records that a snapshot holds, how each is written and how it is read. A record has
fields of fixed width, then at most one counted list. Its encoding is all that is written of it.
-/

namespace GraphicsEngine

namespace Interrupt

def encode (interrupt : Interrupt)
    : Bytes :=
  Snapshot.Encoding.uint32 interrupt.list ++ Snapshot.Encoding.uint32 interrupt.pc
    ++ Snapshot.Encoding.int32 interrupt.channel ++ Snapshot.Encoding.uint32 interrupt.token

def write (interrupt : Interrupt)
    : Snapshot.Writer Unit := do
  .uint32 interrupt.list
  .uint32 interrupt.pc
  .int32 interrupt.channel
  .uint32 interrupt.token

def decode : Snapshot.Reader Interrupt := do
  let list ← .uint32
  let pc ← .uint32
  let channel ← .int32
  let token ← .uint32
  return { list, pc, channel, token }

end Interrupt

namespace CommandCache

/-- The bytes of a cache: its words in order of opcode. -/
def encode (cache : CommandCache)
    : Bytes :=
  cache.words.toList.flatMap Snapshot.Encoding.uint32

def write (cache : CommandCache)
    : Snapshot.Writer Unit :=
  .each .uint32 cache.words.toList

def decode : Snapshot.Reader CommandCache := do
  let words ← .many .uint32 256
  return ofWords words

end CommandCache

namespace Snapshot

def interruptLimit : Nat := 4096

/-- The most return addresses that a reader takes for one list. -/
def stackLimit : Nat := 1024

/-- The state of an engine apart from its lists and its command cache. -/
structure EngineRecord where
  /-- The number that the next list gets. -/
  nextId : ListId
  /-- The list that runs, or zero for none. -/
  current : ListId
  /-- An interrupt is being served. -/
  serving : Bool
  /-- Lists may raise interrupts. -/
  interruptsEnabled : Bool
  /-- The command before the next one. -/
  previous : Word
  /-- The last list that ran has reached its end. -/
  finished : Bool
  /-- What targets are counted from. -/
  offset : Address
  cycles : UInt64
  /-- Cycles are counted up to here. -/
  checkpoint : Address
  startingTicks : UInt64
  /-- Interrupts that wait until the one being served is done. -/
  pending : List Interrupt
deriving DecidableEq, Repr

/-- A display list, with its state as a code and its innermost return address last. -/
structure ListRecord where
  id : ListId
  start : Address
  pc : Address
  stall : Address
  state : UInt8
  channel : Int32
  token : UInt32
  signal : UInt8
  stack : List Address
deriving DecidableEq, Repr

namespace EngineRecord

def encode (record : EngineRecord)
    : Bytes :=
  Encoding.uint32 record.nextId ++ Encoding.uint32 record.current
    ++ Encoding.bool record.serving ++ Encoding.bool record.interruptsEnabled
    ++ Encoding.uint32 record.previous ++ Encoding.bool record.finished
    ++ Encoding.uint32 record.offset ++ Encoding.uint64 record.cycles
    ++ Encoding.uint32 record.checkpoint ++ Encoding.uint64 record.startingTicks
    ++ Encoding.uint32 (UInt32.ofNat record.pending.length)
    ++ record.pending.flatMap Interrupt.encode

/-- Writes an engine record, up to its interrupts if they are too many to be counted. -/
def write (record : EngineRecord)
    : Writer Unit := do
  .uint32 record.nextId
  .uint32 record.current
  .bool record.serving
  .bool record.interruptsEnabled
  .uint32 record.previous
  .bool record.finished
  .uint32 record.offset
  .uint64 record.cycles
  .uint32 record.checkpoint
  .uint64 record.startingTicks
  .count record.pending.length .manyInterrupts
  .each Interrupt.write record.pending

def decode : Reader EngineRecord := do
  let nextId ← .uint32
  let current ← .uint32
  let serving ← .bool
  let interruptsEnabled ← .bool
  let previous ← .uint32
  let finished ← .bool
  let offset ← .uint32
  let cycles ← .uint64
  let checkpoint ← .uint32
  let startingTicks ← .uint64
  let pending ← .counted interruptLimit .manyInterrupts Interrupt.decode
  return { nextId, current, serving, interruptsEnabled, previous, finished, offset, cycles,
           checkpoint, startingTicks, pending }

end EngineRecord

namespace ListRecord

def encode (record : ListRecord)
    : Bytes :=
  Encoding.uint32 record.id ++ Encoding.uint32 record.start ++ Encoding.uint32 record.pc
    ++ Encoding.uint32 record.stall ++ Encoding.uint8 record.state ++ Encoding.int32 record.channel
    ++ Encoding.uint32 record.token ++ Encoding.uint8 record.signal ++ Encoding.words record.stack

/-- Writes a list record, up to its stack if that is too long to be counted. -/
def write (record : ListRecord)
    : Writer Unit := do
  .uint32 record.id
  .uint32 record.start
  .uint32 record.pc
  .uint32 record.stall
  .uint8 record.state
  .int32 record.channel
  .uint32 record.token
  .uint8 record.signal
  .words record.stack

def decode : Reader ListRecord := do
  let id ← .uint32
  let start ← .uint32
  let pc ← .uint32
  let stall ← .uint32
  let state ← .uint8
  let channel ← .int32
  let token ← .uint32
  let signal ← .uint8
  let stack ← .words stackLimit
  return { id, start, pc, stall, state, channel, token, signal, stack }

end ListRecord

/-- All that a snapshot holds. -/
structure Contents where
  engine : EngineRecord
  lists : List ListRecord
  cache : CommandCache
deriving DecidableEq

end Snapshot

end GraphicsEngine
