import GraphicsEngine.Address

/-! Interrupts that display lists raise. -/

namespace GraphicsEngine

/-- The number that the engine gave to a display list. -/
abbrev ListId := UInt32

/-- An interrupt raised by a SIGNAL or FINISH that an END carried out. -/
structure Interrupt where
  /-- The list that raised it. -/
  list : ListId
  /-- The address of the END. -/
  pc : Address
  /-- The interrupt channel of the list. -/
  channel : Int32
  /-- The low half of the SIGNAL or FINISH. -/
  token : UInt32
deriving DecidableEq, Repr, Inhabited

end GraphicsEngine
