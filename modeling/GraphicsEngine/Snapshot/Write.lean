import GraphicsEngine.Snapshot.Cursor
import GraphicsEngine.Snapshot.Section

/-! Writing a snapshot. The length of a section is known once its payload is written: its header
is written with the length zero and corrected afterwards. `layout` is what stands there in the end.
-/

namespace GraphicsEngine.Snapshot

/-- The payload of the lists: their number, then the lists. -/
def listsPayload (records : List ListRecord)
    : Bytes :=
  Encoding.uint32 (UInt32.ofNat records.length) ++ records.flatMap ListRecord.encode

/-- A section with its payload behind a header that gives its length. -/
def sectionLayout (tag : Tag) (payload : Bytes)
    : Bytes :=
  Header.encode ⟨tag, sectionVersion, 0, UInt64.ofNat payload.length⟩ ++ payload

def layout (contents : Contents)
    : Bytes :=
  fileHeader ++ sectionLayout Tag.engine contents.engine.encode
    ++ sectionLayout Tag.lists (listsPayload contents.lists)
    ++ sectionLayout Tag.cache contents.cache.encode

/-- Writes the payload of the lists. -/
def writeLists (records : List ListRecord)
    : Writer Unit := do
  .count records.length .manyLists
  .each ListRecord.write records

/-- Writes a header, then the payload, then the length of the payload into the header. -/
def writeSection (tag : Tag) (payload : Writer Unit)
    : Writer Unit := do
  let headerStart ← .position
  Header.write ⟨tag, sectionVersion, 0, 0⟩
  let payloadStart ← .position
  payload
  let payloadEnd ← .position
  if payloadEnd < payloadStart then
    throw (.corrupt .positionUnderflow)
  else do
    .seek (headerStart + Header.lengthPosition)
    .uint64 (UInt64.ofNat (payloadEnd - payloadStart))
    .seek payloadEnd

def write (contents : Contents)
    : Writer Unit := do
  writeFileHeader
  writeSection Tag.engine contents.engine.write
  writeSection Tag.lists (writeLists contents.lists)
  writeSection Tag.cache contents.cache.write

/-- The bytes that writing a snapshot leaves behind, given the room that there is for them. -/
def save (capacity : Option Nat) (contents : Contents)
    : Except Error Bytes :=
  match (write contents).run (.start capacity) with
  | .ok (_, cursor) => .ok cursor.bytes.toList
  | .error error => .error error

end GraphicsEngine.Snapshot
