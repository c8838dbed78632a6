import GraphicsEngine.Text.Numeral
import GraphicsEngine.Text.Quoted

/-! Addresses as they are typed: hexadecimal behind `0x` or `0X`, otherwise decimal, with
underscores wherever they help to read the digits.
-/

namespace GraphicsEngine.Session

/-- A text that is no address, and why. -/
structure AddressError where
  text : String
  cause : Text.NumeralError
deriving DecidableEq, Repr

/-- The wording of a failure to read an address. -/
def AddressError.message (error : AddressError)
    : String :=
  "invalid address " ++ Text.quote error.text ++ ": " ++ error.cause.message

/-- The radix that a text is written in, and the text without the mark of the radix. -/
def splitRadix
    : List Char → Nat × List Char
  | '0' :: 'x' :: body => (16, body)
  | '0' :: 'X' :: body => (16, body)
  | body => (10, body)

def readAddress (text : String)
    : Except AddressError UInt32 :=
  let (radix, body) := splitRadix text.toList
  match Text.readNumeral radix 0x100000000 (body.filter (· ≠ '_')) with
  | .ok value => .ok (UInt32.ofNat value)
  | .error cause => .error { text, cause }

end GraphicsEngine.Session
