/-! Little-endian numbers: the byte of least weight comes first. -/

namespace GraphicsEngine

/-- A sequence of bytes. -/
abbrev Bytes := List UInt8

namespace LittleEndian

/-- The low `width` bytes of a number, least weight first. -/
def bytes : (width : Nat) → (value : Nat) → Bytes
  | 0, _ => []
  | width + 1, value => UInt8.ofNat (value % 256) :: bytes width (value / 256)

/-- The number that the bytes spell, least weight first. -/
def value : Bytes → Nat
  | [] => 0
  | byte :: rest => byte.toNat + 256 * value rest

def span : (width : Nat) → Nat
  | 0 => 1
  | width + 1 => 256 * span width

/-- A number is spelt with as many bytes as asked for, by induction on the width. -/
@[simp] theorem length_bytes (width number : Nat)
    : (bytes width number).length = width := by
  induction width generalizing number with
  | zero => rfl
  | succ width ih => simp [bytes, ih]

/-- What is beyond the range of the bytes does not show in them, by induction on the width. -/
theorem bytes_mod_span (width number : Nat)
    : bytes width (number % span width) = bytes width number := by
  induction width generalizing number with
  | zero => rfl
  | succ width ih =>
      rw [bytes, bytes, span, Nat.mod_mul_right_mod, Nat.mod_mul_right_div_self, ih]

/-- Reading the low bytes gives the number modulo their range, by induction on the width. -/
theorem value_bytes (width number : Nat)
    : value (bytes width number) = number % span width := by
  induction width generalizing number with
  | zero => simp [bytes, value, span, Nat.mod_one]
  | succ width ih =>
      have low : (UInt8.ofNat (number % 256)).toNat = number % 256 := by
        simp [UInt8.toNat_ofNat']
      rw [bytes, value, ih, low, span, Nat.mod_mul]

/-- Spelling what was read gives the same bytes back, by induction on them. -/
theorem bytes_value (spelt : Bytes)
    : bytes spelt.length (value spelt) = spelt := by
  induction spelt with
  | nil => rfl
  | cons byte rest ih =>
      have small := byte.toNat_lt
      have low : (byte.toNat + 256 * value rest) % 256 = byte.toNat := by omega
      have high : (byte.toNat + 256 * value rest) / 256 = value rest := by omega
      simp [bytes, value, low, high, ih]

/-- The bytes spell a number below their range, by induction on them. -/
theorem value_lt (spelt : Bytes)
    : value spelt < span spelt.length := by
  induction spelt with
  | nil => simp [value, span]
  | cons byte rest ih =>
      have small := byte.toNat_lt
      simp only [value, List.length_cons, span]
      omega

end LittleEndian

end GraphicsEngine
