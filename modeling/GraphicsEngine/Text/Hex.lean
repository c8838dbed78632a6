/-! Hexadecimal text with a fixed number of lower-case digits. -/

namespace GraphicsEngine.Text

/-- The low `width` hexadecimal digits of a number, most weight first. -/
def hexDigits : (width : Nat) → (value : Nat) → List Char
  | 0, _ => []
  | width + 1, value => hexDigits width (value / 16) ++ [Nat.digitChar (value % 16)]

/-- The number written as `0x` and `width` digits. -/
def hex (width value : Nat)
    : String :=
  String.ofList ('0' :: 'x' :: hexDigits width value)

/-- A number is written with as many digits as asked for, by induction on the width. -/
@[simp] theorem length_hexDigits (width value : Nat)
    : (hexDigits width value).length = width := by
  induction width generalizing value with
  | zero => rfl
  | succ width ih => simp [hexDigits, ih]

end GraphicsEngine.Text
