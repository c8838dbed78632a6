import GraphicsEngine.Interrupt

/-! How a program asks for the progress of its display lists, and what it may be told. -/

namespace GraphicsEngine

/-- Whether to wait for the end or only to look. -/
inductive SyncMode where
  | wait
  | peek
deriving DecidableEq, Repr

/-- The progress of one list or of the whole queue. -/
inductive SyncStatus where
  | completed
  | queued
  | drawing
  | stalling
  | paused
deriving DecidableEq, Repr

/-- Why a question about progress was refused. -/
inductive SyncError where
  | unknownList (id : ListId)
  | invalidMode (mode : UInt32)
deriving DecidableEq, Repr

namespace SyncStatus

def code
    : SyncStatus → UInt32
  | completed => 0
  | queued => 1
  | drawing => 2
  | stalling => 3
  | paused => 4

def name
    : SyncStatus → String
  | completed => "completed"
  | queued => "queued"
  | drawing => "drawing"
  | stalling => "stalling"
  | paused => "paused"

end SyncStatus

namespace SyncError

/-- The error number that the program is told. -/
def code
    : SyncError → UInt32
  | unknownList _ => 0x80000100
  | invalidMode _ => 0x80000107

def message
    : SyncError → String
  | unknownList id => "no display list with id " ++ toString id.toNat
  | invalidMode mode => "invalid sync mode " ++ toString mode.toNat

end SyncError

/-- The mode that a number stands for; only zero and one stand for any. -/
def SyncMode.ofCode
    : UInt32 → Except SyncError SyncMode
  | 0 => .ok .wait
  | 1 => .ok .peek
  | mode => .error (.invalidMode mode)

end GraphicsEngine
