import GraphicsEngine.Engine.Persistence
import GraphicsEngine.Session.Arguments
import GraphicsEngine.Session.Summary

/-! A session: an image is put into memory, a display list in it is run or a saved state is gone on
from, its stall address is moved along, and the state may be saved again.
-/

namespace GraphicsEngine.Session

/-- The files around a session, as they are before it. -/
structure Files where
  /-- The contents of a file, or why it cannot be read. -/
  read : String → Except String Bytes
  /-- Whether a file can be created, or why not. -/
  create : String → Except String Unit

/-- What else a session depends on. -/
structure Surroundings where
  files : Files
  /-- The clock when the queue is taken up for the n-th time. -/
  clock : (drains : Nat) → UInt64
  /-- How many turns of the fetch cycle a list may take before it is given up as endless. -/
  fuel : Nat

/-- Why a session failed. -/
inductive Failure where
  | imageUnreadable (path reason : String)
  | imageEmpty (path : String)
  | imageTooLarge
  | imageUnplaceable (address : Address) (error : Memory.Error)
  | stateUnreadable (path reason : String)
  | stateUnusable (path : String) (error : Snapshot.Error)
  /-- The stall address of no list is to be moved. -/
  | nothingToAdvance
  | stateUncreatable (path reason : String)
  | stateUnsavable (path : String) (error : Snapshot.Error)
deriving DecidableEq, Repr

/-- The wording of a snapshot failure with its cause behind it. -/
def chain (error : Snapshot.Error)
    : String :=
  match error.transfer? with
  | none => error.message
  | some cause => error.message ++ ": " ++ cause

/-- The wording of a failure: what was tried, then what came of it. -/
def Failure.message
    : Failure → String
  | imageUnreadable path reason => "read " ++ path ++ ": " ++ reason
  | imageEmpty path => "image " ++ path ++ " is empty"
  | imageTooLarge => "image is larger than 4 GiB"
  | imageUnplaceable address error =>
      "load image at " ++ Text.hex 8 address.toNat ++ ": " ++ error.message
  | stateUnreadable path reason => "open " ++ path ++ ": " ++ reason
  | stateUnusable path error => "restore " ++ path ++ ": " ++ chain error
  | nothingToAdvance => "--advance given but there is no display list to advance"
  | stateUncreatable path reason => "create " ++ path ++ ": " ++ reason
  | stateUnsavable path error => "save " ++ path ++ ": " ++ chain error

/-- Where a session stands: its engine with the memory, and all that happened. -/
structure State where
  engine : Engine
  memory : Memory
  /-- The list that the session is about. -/
  list : Option ListId
  /-- How often the queue was taken up. -/
  drains : Nat := 0
  trace : Trace := #[]

/-- How far a part of a session got. -/
structure Result (α : Type) where
  value : Except Failure α
  /-- What happened, also before a failure. -/
  trace : Trace

/-- What the machine around the engine gives to the next drain. -/
def State.host (session : State) (surroundings : Surroundings)
    : Host :=
  { memory := session.memory
    ticks := surroundings.clock session.drains
    fuel := surroundings.fuel }

/-- The memory with the image in it, and the size of the image. -/
def loadImage (arguments : Arguments) (files : Files)
    : Except Failure (Memory × UInt32) :=
  match files.read arguments.image with
  | .error reason => .error (.imageUnreadable arguments.image reason)
  | .ok image =>
      if image.isEmpty then
        .error (.imageEmpty arguments.image)
      else if 0x100000000 ≤ image.length then
        .error .imageTooLarge
      else
        match (Memory.blank arguments.ramSize).write arguments.loadAddress image with
        | .error error => .error (.imageUnplaceable arguments.loadAddress error)
        | .ok memory => .ok (memory, UInt32.ofNat image.length)

def firstEngine (arguments : Arguments)
    : Engine :=
  .initial {
    interruptsEnabled := !arguments.noInterrupts
    traceCommands := arguments.traceCommands }

/-- Goes on from a saved state. The session is about the current list, or else the front one. -/
def resume (arguments : Arguments) (files : Files) (memory : Memory) (path : String)
    : Result State :=
  match files.read path with
  | .error reason => { value := .error (.stateUnreadable path reason), trace := #[] }
  | .ok bytes =>
      match (firstEngine arguments).load bytes with
      | .error error => { value := .error (.stateUnusable path error), trace := #[] }
      | .ok outcome =>
          let engine :=
            if arguments.noInterrupts then outcome.engine.setInterrupts false
            else outcome.engine
          let list := engine.current.or (engine.queue.head?.map (·.id))
          let trace := outcome.trace.push (.notice (.restored engine.queue.length list))
          { value := .ok { engine, memory, list, trace }, trace }

/-- Runs a new list from an address up to a stall address, by default the whole image. None when the
list runs out of fuel.
-/
def launch (arguments : Arguments) (surroundings : Surroundings) (memory : Memory)
    (size : UInt32)
    : Option State :=
  let list := arguments.list.getD arguments.loadAddress
  let stall := arguments.stall.getD (arguments.loadAddress + size)
  let session : State := { engine := firstEngine arguments, memory, list := none }
  match session.engine.enqueue (session.host surroundings) list stall arguments.channel
    arguments.head with
  | none => none
  | some outcome =>
      some { session with
        engine := outcome.engine, list := some outcome.answer, drains := 1
        trace := outcome.trace }

/-- Moves the stall address of the list that the session is about to one address after the other.
None when a list runs out of fuel.
-/
def advance (surroundings : Surroundings)
    : List Address → State → Option (Result State)
  | [], session => some { value := .ok session, trace := session.trace }
  | stall :: rest, session =>
      match session.list with
      | none => some { value := .error .nothingToAdvance, trace := session.trace }
      | some id =>
          let trace := session.trace.push (.notice (.advancing id stall))
          match session.engine.moveStall (session.host surroundings) id stall with
          | none => none
          | some outcome =>
              advance surroundings rest { session with
                engine := outcome.engine, drains := session.drains + 1
                trace := trace ++ outcome.trace }

/-- What a session leaves behind. -/
structure Report where
  summary : Summary
  /-- The file that is written in the end, with its contents. -/
  saved : Option (String × Bytes)

/-- Ends a session: the state is saved if that was asked for, and the summary is drawn up. -/
def conclude (arguments : Arguments) (files : Files) (session : State)
    : Except Failure Report :=
  let summary := Summary.collect session.engine session.list session.trace
  match arguments.saveState with
  | none => .ok { summary, saved := none }
  | some path =>
      match files.create path with
      | .error reason => .error (.stateUncreatable path reason)
      | .ok _ =>
          match session.engine.save with
          | .error error => .error (.stateUnsavable path error)
          | .ok bytes => .ok { summary, saved := some (path, bytes) }

/-- Begins a session: with the saved state, if one is given, otherwise with a new list. -/
def start (arguments : Arguments) (surroundings : Surroundings)
    : Option (Result State) :=
  match loadImage arguments surroundings.files with
  | .error failure => some { value := .error failure, trace := #[] }
  | .ok (memory, size) =>
      match arguments.loadState with
      | some path => some (resume arguments surroundings.files memory path)
      | none =>
          (launch arguments surroundings memory size).map fun session =>
            { value := .ok session, trace := session.trace }

/-- Runs a whole session; none when a list runs out of fuel. -/
def run (arguments : Arguments) (surroundings : Surroundings)
    : Option (Result Report) :=
  match start arguments surroundings with
  | none => none
  | some { value := .error failure, trace } => some { value := .error failure, trace }
  | some { value := .ok session, .. } =>
      match advance surroundings arguments.advances session with
      | none => none
      | some { value := .error failure, trace } => some { value := .error failure, trace }
      | some { value := .ok session, trace } =>
          some { value := conclude arguments surroundings.files session, trace }

end GraphicsEngine.Session
