/-! A tick counter that is moved by hand. -/

namespace GraphicsEngine

/-- The ticks counted so far. -/
structure Clock where
  now : UInt64
deriving DecidableEq, Repr

namespace Clock

def set (_clock : Clock) (ticks : UInt64)
    : Clock :=
  ⟨ticks⟩

/-- The counter moves on and stops at its largest value. -/
def advance (clock : Clock) (ticks : UInt64)
    : Clock :=
  ⟨UInt64.ofNat (min (clock.now.toNat + ticks.toNat) 0xFFFFFFFFFFFFFFFF)⟩

end Clock

end GraphicsEngine
