/-! Reading numbers that are written in a given radix, with a bound on their value. -/

namespace GraphicsEngine.Text

/-- Why a text is not a number. -/
inductive NumeralError where
  | empty
  | invalidDigit
  | tooLarge
deriving DecidableEq, Repr

/-- The wording of a failure to read a number. -/
def NumeralError.message
    : NumeralError → String
  | empty => "cannot parse integer from empty string"
  | invalidDigit => "invalid digit found in string"
  | tooLarge => "number too large to fit in target type"

/-- The value of a digit in any radix that it belongs to; letters count on from nine in either
case.
-/
def digitValue? (character : Char)
    : Option Nat :=
  if '0' ≤ character ∧ character ≤ '9' then
    some (character.toNat - '0'.toNat)
  else if 'a' ≤ character ∧ character ≤ 'z' then
    some (character.toNat - 'a'.toNat + 10)
  else if 'A' ≤ character ∧ character ≤ 'Z' then
    some (character.toNat - 'A'.toNat + 10)
  else
    none

/-- The value of a digit of the radix. -/
def digit? (radix : Nat) (character : Char)
    : Option Nat :=
  (digitValue? character).filter (· < radix)

/-- Reads digits behind a value. The first digit that is none, or that takes the value to the
bound, decides what is wrong.
-/
def readDigits (radix bound : Nat) (value : Nat)
    : List Char → Except NumeralError Nat
  | [] => .ok value
  | character :: rest =>
      match digit? radix character with
      | none => .error .invalidDigit
      | some digit =>
          if value * radix + digit < bound then
            readDigits radix bound (value * radix + digit) rest
          else
            .error .tooLarge

/-- Reads a number below a bound: an optional plus sign and at least one digit. -/
def readNumeral (radix bound : Nat)
    : List Char → Except NumeralError Nat
  | [] => .error .empty
  | ['+'] => .error .invalidDigit
  | '+' :: digits => readDigits radix bound 0 digits
  | digits => readDigits radix bound 0 digits

/-- Reads a decimal number from `-below` up to a bound that is not reached: an optional sign and at
least one digit.
-/
def readInteger? (below bound : Nat)
    : List Char → Option Int
  | ['-'] => none
  | '-' :: digits =>
      match readDigits 10 (below + 1) 0 digits with
      | .ok magnitude => some (-magnitude)
      | .error _ => none
  | text =>
      match readNumeral 10 bound text with
      | .ok value => some value
      | .error _ => none

end GraphicsEngine.Text
