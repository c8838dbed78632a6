/-! Guest addresses. Only the low 28 bits select memory; the top nibble names one of sixteen
segments in which the same bytes appear.
-/

namespace GraphicsEngine

/-- A 32-bit guest address. -/
abbrev Address := UInt32

namespace Address

/-- The address without its segment, so that a byte has one address in all of them. -/
def mask (address : Address) : Address :=
  address &&& 0x0FFFFFFF

/-- The address names no segment: masking keeps it. -/
def IsMasked (address : Address) : Prop :=
  mask address = address

instance (address : Address) : Decidable (IsMasked address) :=
  inferInstanceAs (Decidable (mask address = address))

/-- Masking twice is masking once, since the mask has no bit outside itself. -/
theorem mask_mask (address : Address)
    : mask (mask address) = mask address := by
  simp [mask, UInt32.and_assoc]

theorem isMasked_mask (address : Address)
    : IsMasked (mask address) :=
  mask_mask address

end Address

end GraphicsEngine
