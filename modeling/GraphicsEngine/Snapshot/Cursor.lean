import GraphicsEngine.Snapshot.Error
import GraphicsEngine.LittleEndian

/-! Cursors write bytes at a position that can be moved back, over what was written before. -/

namespace GraphicsEngine.Snapshot

/-- The bytes written so far and the position of the next one. -/
structure Cursor where
  bytes : Array UInt8
  position : Nat
  /-- The number of bytes that there is room for, unless there is no bound. -/
  capacity : Option Nat
deriving DecidableEq, Repr

namespace Cursor

def start (capacity : Option Nat)
    : Cursor :=
  ⟨#[], 0, capacity⟩

def hasRoom (cursor : Cursor) (count : Nat)
    : Bool :=
  match cursor.capacity with
  | none => true
  | some capacity => cursor.position + count ≤ capacity

/-- Puts bytes over those from a position on, and behind the last one. -/
def overwrite (bytes : Array UInt8) (position : Nat)
    : Bytes → Array UInt8
  | [] => bytes
  | byte :: rest =>
      let bytes :=
        if position < bytes.size then bytes.setIfInBounds position byte else bytes.push byte
      overwrite bytes (position + 1) rest

/-- Behind the last byte, overwriting appends, by induction on what is written. -/
theorem toList_overwrite_size (bytes : Array UInt8) (chunk : Bytes)
    : (overwrite bytes bytes.size chunk).toList = bytes.toList ++ chunk := by
  induction chunk generalizing bytes with
  | nil => simp [overwrite]
  | cons byte rest ih =>
      have grown := ih (bytes.push byte)
      simp only [Array.size_push] at grown
      simp [overwrite, grown]

end Cursor

/-- Writes through a cursor. -/
abbrev Writer := StateT Cursor (Except Error)

namespace Writer

/-- Writes bytes at the position and moves behind them. -/
def put (chunk : Bytes)
    : Writer Unit :=
  fun cursor =>
    if cursor.hasRoom chunk.length then
      .ok ((), { cursor with
        bytes := Cursor.overwrite cursor.bytes cursor.position chunk
        position := cursor.position + chunk.length })
    else
      .error .bufferFull

def position : Writer Nat := do
  return (← get).position

def seek (position : Nat)
    : Writer Unit :=
  modify fun cursor => { cursor with position }

end Writer

end GraphicsEngine.Snapshot
