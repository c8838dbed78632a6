import GraphicsEngine.LittleEndian

/-! The bytes of the plain values that snapshots are made of. -/

namespace GraphicsEngine.Snapshot.Encoding

def uint8 (value : UInt8)
    : Bytes :=
  [value]

/-- A truth value, as zero or one. -/
def bool (value : Bool)
    : Bytes :=
  [if value then 1 else 0]

def uint16 (value : UInt16)
    : Bytes :=
  LittleEndian.bytes 2 value.toNat

def uint32 (value : UInt32)
    : Bytes :=
  LittleEndian.bytes 4 value.toNat

def int32 (value : Int32)
    : Bytes :=
  uint32 value.toUInt32

def uint64 (value : UInt64)
    : Bytes :=
  LittleEndian.bytes 8 value.toNat

/-- The number of words in four bytes, then the words. -/
def words (values : List UInt32)
    : Bytes :=
  uint32 (UInt32.ofNat values.length) ++ values.flatMap uint32

end GraphicsEngine.Snapshot.Encoding
