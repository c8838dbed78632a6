import GraphicsEngine.Snapshot.Record

/-! A snapshot is a file header and then sections. A section says in its header what it holds and
how long it is, so a reader can pass over what it does not know.
-/

namespace GraphicsEngine.Snapshot

/-- What a section holds, by number. -/
abbrev Tag := UInt32

namespace Tag

def engine : Tag := 1

def lists : Tag := 2

def cache : Tag := 3

/-- The name of a kind of section that has one. -/
def name?
    : Tag → Option String
  | 1 => some "ENGINE"
  | 2 => some "LISTS"
  | 3 => some "CMD_CACHE"
  | _ => none

/-- The name and number of a kind of section. -/
def describe (tag : Tag)
    : String :=
  (name? tag).getD "SectionId" ++ "(" ++ toString tag.toNat ++ ")"

end Tag

/-- What stands at the start of every snapshot. -/
def magic : Bytes :=
  "GESNAP".toList.map (fun letter => UInt8.ofNat letter.toNat) ++ [0, 0]

/-- The version that is written, and the only one that is read. -/
def formatVersion : UInt16 := 1

/-- The mark of little-endian numbers, the only order that is read. -/
def littleEndianTag : UInt8 := 1

/-- The file header: magic, version, byte order, a reserved byte and flags. -/
def fileHeader : Bytes :=
  magic ++ Encoding.uint16 formatVersion ++ Encoding.uint8 littleEndianTag ++ Encoding.uint8 0
    ++ Encoding.uint32 0

def writeFileHeader : Writer Unit := do
  .put magic
  .uint16 formatVersion
  .uint8 littleEndianTag
  .uint8 0
  .uint32 0

/-- Reads the file header. The reserved byte and the flags may hold anything. -/
def readFileHeader : Reader Unit := do
  let found ← .take magic.length
  if found ≠ magic then throw .invalidMagic
  let version ← .uint16
  if version ≠ formatVersion then throw (.unsupportedVersion version)
  let order ← .uint8
  if order ≠ littleEndianTag then throw (.invalidEndianness order)
  let _reserved ← .uint8
  let _flags ← .uint32
  return ()

/-- What a section says about itself before its payload. -/
structure Header where
  tag : Tag
  version : UInt16
  flags : UInt16
  /-- The number of bytes of the payload. -/
  length : UInt64
deriving DecidableEq, Repr

namespace Header

def size : Nat := 16

/-- Where in a header the length of the payload stands. -/
def lengthPosition : Nat := 8

def encode (header : Header)
    : Bytes :=
  Encoding.uint32 header.tag ++ Encoding.uint16 header.version ++ Encoding.uint16 header.flags
    ++ Encoding.uint64 header.length

def write (header : Header)
    : Writer Unit := do
  .uint32 header.tag
  .uint16 header.version
  .uint16 header.flags
  .uint64 header.length

def decode : Reader Header := do
  let tag ← .uint32
  let version ← .uint16
  let flags ← .uint16
  let length ← .uint64
  return { tag, version, flags, length }

end Header

def listLimit : Nat := 4096

/-- The longest section of lists that a reader looks into: 64 MiB. -/
def listsLengthLimit : UInt64 := 0x04000000

/-- The version of every kind of section that is written, and the only one that is read. -/
def sectionVersion : UInt16 := 1

/-- What a section held. -/
inductive Section where
  | engine (record : EngineRecord)
  | lists (records : List ListRecord)
  | cache (cache : CommandCache)
deriving DecidableEq

namespace Section

def isEngine
    : Section → Bool
  | engine _ => true
  | _ => false

def isLists
    : Section → Bool
  | lists _ => true
  | _ => false

def isCache
    : Section → Bool
  | cache _ => true
  | _ => false

/-- Reads a payload. Of a section of unknown kind or version nothing is read. -/
def decode (header : Header)
    : Reader (Option Section) :=
  if header.version ≠ sectionVersion then
    return none
  else if header.tag = Tag.engine then do
    let record ← EngineRecord.decode
    return some (engine record)
  else if header.tag = Tag.lists then do
    let records ← .counted listLimit .manyLists ListRecord.decode
    return some (lists records)
  else if header.tag = Tag.cache then do
    let words ← CommandCache.decode
    return some (cache words)
  else
    return none

end Section

end GraphicsEngine.Snapshot
