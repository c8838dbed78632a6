import GraphicsEngine.Engine.Drain
import GraphicsEngine.Sync

/-! What a program asks of the engine: to take on lists, to move their stall addresses, to say how
far they are, and to be told that an interrupt is being served.
-/

namespace GraphicsEngine.Engine

/-- The number after a given one. Zero is never given out: it stands for no list. -/
def followingId (id : ListId)
    : ListId :=
  if id + 1 = 0 then 1 else id + 1

/-- A list joins the queue in front of all others or behind them, and the queue is run as far as it
goes. The answer is the number of the list.
-/
def enqueue (engine : Engine) (host : Host) (list stall : Address) (channel : Int32)
    (head : Bool)
    : Option (Outcome ListId) :=
  let joining := DisplayList.fresh engine.nextId list stall channel
  let queue :=
    if head then Queue.pushFront engine.queue joining else Queue.pushBack engine.queue joining
  let engine := { engine with queue, nextId := followingId engine.nextId }
  match engine.drainInto host #[.notice (.enqueued joining head)] with
  | none => none
  | some outcome => some { outcome with answer := joining.id }

/-- The list with a number waits at another address from now on, and the queue is run as far as it
goes. A number that no list has changes no address.
-/
def moveStall (engine : Engine) (host : Host) (id : ListId) (stall : Address)
    : Option (Outcome Bool) :=
  { engine with queue := Queue.moveStall engine.queue id stall }.drain host

/-- No interrupt is being served any more: those that waited are delivered in order, and the queue
is run as far as it goes.
-/
def endService (engine : Engine) (host : Host)
    : Option (Outcome Bool) :=
  let delivered := engine.interrupts.pending.map Occurrence.delivered
  { engine with
    interrupts := { engine.interrupts with serving := false, pending := #[] } }.drainInto host
      delivered

/-- The engine goes back to its first state, counters included, and the renderer is told. -/
def reset (engine : Engine)
    : Outcome Unit :=
  { answer := (), engine := initial engine.config, trace := #[.event .reset] }

/-- The progress of the whole queue, with what is noticed on the way. Waiting is not done: it
answers at once that all is completed.
-/
def drawSync (engine : Engine) (mode : UInt32)
    : Except SyncError (SyncStatus × Trace) :=
  match SyncMode.ofCode mode with
  | .error error => .error error
  | .ok .wait => .ok (.completed, #[.notice .drawWaitIgnored])
  | .ok .peek =>
      match engine.currentList? with
      | none => .ok (.completed, #[])
      | some list => .ok (if list.isStalled then .stalling else .drawing, #[])

/-- The progress of a list in the queue. -/
def progress (list : DisplayList)
    : SyncStatus :=
  match list.state with
  | .queued => .queued
  | .running => if list.isStalled then .stalling else .drawing
  | .completed => .completed
  | .paused => .paused

/-- The progress of one list, with what is noticed on the way. Waiting is not done: it answers at
once, for any number, that the list is completed.
-/
def listSync (engine : Engine) (id : ListId) (mode : UInt32)
    : Except SyncError (SyncStatus × Trace) :=
  match SyncMode.ofCode mode with
  | .error error => .error error
  | .ok .wait => .ok (.completed, #[.notice (.listWaitIgnored id)])
  | .ok .peek =>
      match engine.list? id with
      | none => .error (.unknownList id)
      | some list => .ok (progress list, #[])

end GraphicsEngine.Engine
