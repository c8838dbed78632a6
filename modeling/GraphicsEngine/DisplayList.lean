import GraphicsEngine.Interrupt

/-! Display lists: programs in guest memory together with all that is needed to resume them. -/

namespace GraphicsEngine

/-- The life cycle of a display list. -/
inductive ListState where
  | queued
  | running
  | completed
  | paused
deriving DecidableEq, Repr

namespace ListState

def code
    : ListState → UInt8
  | queued => 1
  | running => 2
  | completed => 3
  | paused => 4

def ofCode?
    : UInt8 → Option ListState
  | 1 => some .queued
  | 2 => some .running
  | 3 => some .completed
  | 4 => some .paused
  | _ => none

def name
    : ListState → String
  | queued => "Queued"
  | running => "Running"
  | completed => "Completed"
  | paused => "Paused"

/-- A state is read back from its code, case by case. -/
theorem ofCode?_code (state : ListState)
    : ofCode? state.code = some state := by
  cases state <;> rfl

end ListState

/-- A display list and the point that its execution has reached. -/
structure DisplayList where
  id : ListId
  /-- Where the list begins. -/
  start : Address
  /-- The address of the next command. -/
  pc : Address
  /-- The address at which the list waits for more commands. -/
  stall : Address
  state : ListState
  /-- The interrupt channel; below zero the list raises no interrupts. -/
  channel : Int32
  /-- The token of the last SIGNAL or FINISH carried out. -/
  token : UInt32
  /-- The behaviour byte of the last SIGNAL carried out, zero before any. -/
  signal : UInt8
  /-- Return addresses, innermost call first. -/
  stack : List Address
deriving DecidableEq, Repr

namespace DisplayList

/-- The number of calls that may be open at once. -/
def stackCapacity : Nat := 32

/-- A list that has not run yet. Its addresses are masked, and every channel below zero becomes the
one channel without interrupts.
-/
def fresh (id : ListId) (list stall : Address) (channel : Int32)
    : DisplayList :=
  { id
    start := list.mask
    pc := list.mask
    stall := stall.mask
    state := .queued
    channel := if channel < -1 then -1 else channel
    token := 0
    signal := 0
    stack := [] }

/-- The list has reached the address at which it waits. -/
def isStalled (list : DisplayList)
    : Bool :=
  list.pc == list.stall

/-- The list waits at another address from now on. -/
def withStall (list : DisplayList) (stall : Address)
    : DisplayList :=
  { list with stall := stall.mask }

/-- Opens a call that returns to an address, unless the stack is full. -/
def push? (list : DisplayList) (address : Address)
    : Option DisplayList :=
  if list.stack.length < stackCapacity then
    some { list with stack := address.mask :: list.stack }
  else
    none

/-- Closes the innermost call and gives its return address. -/
def pop? (list : DisplayList)
    : Option (Address × DisplayList) :=
  match list.stack with
  | [] => none
  | address :: outer => some (address, { list with stack := outer })

end DisplayList

end GraphicsEngine
