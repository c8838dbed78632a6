import GraphicsEngine.Engine.Persistence
import GraphicsEngine.Engine.Requests

/-! The operations of the engine as data, so that what happens over a whole series of them can be
told in one place.
-/

namespace GraphicsEngine

/-- An operation that may change the engine or be noticed. -/
inductive Operation where
  | enqueue (list stall : Address) (channel : Int32) (head : Bool)
  | moveStall (id : ListId) (stall : Address)
  | drain
  | beginService
  | endService
  | setInterrupts (enabled : Bool)
  | reset
  | load (bytes : Bytes)
  | drawSync (mode : UInt32)
  | listSync (id : ListId) (mode : UInt32)
  /-- Has no effect. -/
  | dequeueList (id : ListId)
  /-- Has no effect. -/
  | continueQueue
  /-- Has no effect, but a mode that there is not is refused. -/
  | breakQueue (mode : UInt32)
deriving DecidableEq, Repr

/-- What an operation answers. -/
inductive Answer where
  | done
  | enqueued (id : ListId)
  /-- Whether the queue is empty. -/
  | drained (empty : Bool)
  | status (status : SyncStatus)
  | refused (error : SyncError)
  | unreadable (error : Snapshot.Error)
deriving DecidableEq, Repr

namespace Operation

def answerWith {α : Type} (outcome : Outcome α) (answer : α → Answer)
    : Outcome Answer :=
  { outcome with answer := answer outcome.answer }

def report (engine : Engine)
    : Except SyncError (SyncStatus × Trace) → Outcome Answer
  | .ok (status, trace) => { answer := .status status, engine, trace }
  | .error error => { answer := .refused error, engine, trace := #[] }

/-- The outcome of a call to interrupt the queue. -/
def refuseBreak (engine : Engine) (mode : UInt32)
    : Outcome Answer :=
  match SyncMode.ofCode mode with
  | .ok _ => { answer := .done, engine, trace := #[.notice (.breakIgnored mode)] }
  | .error error => { answer := .refused error, engine, trace := #[] }

/-- The outcome of loading a snapshot; one that is refused changes nothing. -/
def loadInto (engine : Engine) (bytes : Bytes)
    : Outcome Answer :=
  match engine.load bytes with
  | .ok outcome => answerWith outcome fun _ => .done
  | .error error => { answer := .unreadable error, engine, trace := #[] }

/-- Performs an operation; none when a list runs out of fuel. -/
def perform (host : Host) (engine : Engine)
    : Operation → Option (Outcome Answer)
  | .enqueue list stall channel head =>
      (engine.enqueue host list stall channel head).map (answerWith · .enqueued)
  | .moveStall id stall =>
      (engine.moveStall host id stall).map (answerWith · fun _ => .done)
  | .drain => (engine.drain host).map (answerWith · .drained)
  | .beginService => some { answer := .done, engine := engine.beginService, trace := #[] }
  | .endService => (engine.endService host).map (answerWith · .drained)
  | .setInterrupts enabled =>
      some { answer := .done, engine := engine.setInterrupts enabled, trace := #[] }
  | .reset => some (answerWith engine.reset fun _ => .done)
  | .load bytes => some (loadInto engine bytes)
  | .drawSync mode => some (report engine (engine.drawSync mode))
  | .listSync id mode => some (report engine (engine.listSync id mode))
  | .dequeueList id =>
      some { answer := .done, engine, trace := #[.notice (.dequeueIgnored id)] }
  | .continueQueue => some { answer := .done, engine, trace := #[.notice .continueIgnored] }
  | .breakQueue mode => some (refuseBreak engine mode)

end Operation

end GraphicsEngine
