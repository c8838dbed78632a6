import GraphicsEngine.Snapshot.Cursor
import GraphicsEngine.Snapshot.Encoding

/-! Writers of the plain values that snapshots are made of, and of sequences of values. -/

namespace GraphicsEngine.Snapshot.Writer

def uint8 (value : UInt8)
    : Writer Unit :=
  put (Encoding.uint8 value)

def bool (value : Bool)
    : Writer Unit :=
  put (Encoding.bool value)

def uint16 (value : UInt16)
    : Writer Unit :=
  put (Encoding.uint16 value)

def uint32 (value : UInt32)
    : Writer Unit :=
  put (Encoding.uint32 value)

def int32 (value : Int32)
    : Writer Unit :=
  put (Encoding.int32 value)

def uint64 (value : UInt64)
    : Writer Unit :=
  put (Encoding.uint64 value)

/-- Writes values one after the other. -/
def each {α : Type} (write : α → Writer Unit)
    : List α → Writer Unit
  | [] => return ()
  | value :: rest => do
      write value
      each write rest

/-- Writes a number of values, if four bytes can hold it. -/
def count (number : Nat) (excess : Flaw)
    : Writer Unit :=
  if number < 0x100000000 then uint32 (UInt32.ofNat number) else throw (.corrupt excess)

/-- Writes the number of words, then the words. -/
def words (values : List UInt32)
    : Writer Unit := do
  count values.length .wideLength
  each uint32 values

end GraphicsEngine.Snapshot.Writer
