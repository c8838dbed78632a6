import GraphicsEngine.DisplayList

/-! Why a snapshot could not be written or read. -/

namespace GraphicsEngine.Snapshot

/-- What is wrong with the contents of a snapshot. -/
inductive Flaw where
  /-- A truth value is neither zero nor one. -/
  | invalidBool
  /-- A list of words is longer than its reader takes. -/
  | longWordList
  /-- A list of words is too long for its count to be written. -/
  | wideLength
  | manyInterrupts
  | manyLists
  /-- A section of display lists claims more bytes than any reader takes. -/
  | largeLists
  /-- The payload of a section ends before it begins. -/
  | positionUnderflow
  | noEngine
  | noLists
  | unknownState
  | reservedId
  | foreignAddress
  | invalidChannel
  /-- A list has a number that the engine has yet to give out. -/
  | idAhead
  /-- The engine has no number to give to its next list. -/
  | noNextId
  /-- The receiver of the contents refused them. -/
  | refused (reason : String)
deriving DecidableEq, Repr

/-- Why a snapshot could not be written or read. -/
inductive Error where
  /-- The bytes end inside a value. -/
  | unexpectedEnd
  /-- The bytes end inside a section. -/
  | truncatedPayload
  /-- The output has no room left. -/
  | bufferFull
  | invalidMagic
  | unsupportedVersion (version : UInt16)
  | invalidEndianness (tag : UInt8)
  | corrupt (flaw : Flaw)
  | duplicateList (id : ListId)
  | deepStack (id : ListId) (depth : Nat)
deriving DecidableEq, Repr

def Flaw.message
    : Flaw → String
  | invalidBool => "invalid bool"
  | longWordList => "word list too long"
  | wideLength => "length does not fit in u32"
  | manyInterrupts => "too many pending interrupts"
  | manyLists => "too many display lists"
  | largeLists => "lists section too large"
  | positionUnderflow => "stream position underflow"
  | noEngine => "missing ENGINE section"
  | noLists => "missing LISTS section"
  | unknownState => "unknown display list state"
  | reservedId => "display list id 0 is reserved"
  | foreignAddress => "display list address outside the GE range"
  | invalidChannel => "invalid interrupt channel"
  | idAhead => "list id generator behind a live list"
  | noNextId => "list id generator is zero"
  | refused reason => reason

namespace Error

/-- The cause of a failure that lies in moving the bytes and not in what they say. -/
def transfer?
    : Error → Option String
  | unexpectedEnd => some "failed to fill whole buffer"
  | truncatedPayload => some "truncated section payload"
  | bufferFull => some "failed to write whole buffer"
  | _ => none

def message
    : Error → String
  | unexpectedEnd => "io error: failed to fill whole buffer"
  | truncatedPayload => "io error: truncated section payload"
  | bufferFull => "io error: failed to write whole buffer"
  | invalidMagic => "invalid snapshot magic"
  | unsupportedVersion version => "unsupported snapshot version " ++ toString version.toNat
  | invalidEndianness tag => "invalid endianness tag " ++ toString tag.toNat
  | corrupt flaw => "corrupt snapshot: " ++ flaw.message
  | duplicateList id =>
      "display list id " ++ toString id.toNat ++ " appears more than once"
  | deepStack id depth =>
      "display list " ++ toString id.toNat ++ " has " ++ toString depth
        ++ " stack entries (capacity " ++ toString DisplayList.stackCapacity ++ ")"

end Error

end GraphicsEngine.Snapshot
