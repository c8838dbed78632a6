/-! What a SIGNAL asks of the list that it stands in. -/

namespace GraphicsEngine

/-- The behaviours that have a meaning; a SIGNAL may carry any other byte as well. -/
inductive SignalBehavior where
  | suspend
  | continue
  | pause
  | sync
  | jump
  | call
  | return
deriving DecidableEq, Repr

namespace SignalBehavior

def ofCode?
    : UInt8 → Option SignalBehavior
  | 0x01 => some .suspend
  | 0x02 => some .continue
  | 0x03 => some .pause
  | 0x08 => some .sync
  | 0x10 => some .jump
  | 0x11 => some .call
  | 0x12 => some .return
  | _ => none

def code
    : SignalBehavior → UInt8
  | suspend => 0x01
  | .continue => 0x02
  | pause => 0x03
  | sync => 0x08
  | jump => 0x10
  | call => 0x11
  | .return => 0x12

def name
    : SignalBehavior → String
  | suspend => "Suspend"
  | .continue => "Continue"
  | pause => "Pause"
  | sync => "Sync"
  | jump => "Jump"
  | call => "Call"
  | .return => "Return"

/-- A behaviour is read back from its byte, case by case. -/
theorem ofCode?_code (behavior : SignalBehavior)
    : ofCode? behavior.code = some behavior := by
  cases behavior <;> rfl

end SignalBehavior

end GraphicsEngine
