import GraphicsEngine.Address

/-! Command words: the top byte selects a command, the low 24 bits are its operand. -/

namespace GraphicsEngine

/-- A command as it stands in memory. -/
abbrev Word := UInt32

/-- The byte that selects a command. -/
abbrev Opcode := UInt8

namespace Opcode

/-- Does nothing. -/
@[match_pattern] def nop : Opcode := 0x00
/-- Goes on at another address. -/
@[match_pattern] def jump : Opcode := 0x08
/-- Goes on at another address and remembers where to return to. -/
@[match_pattern] def call : Opcode := 0x0A
/-- Goes back to the address remembered last. -/
@[match_pattern] def ret : Opcode := 0x0B
/-- Carries out the SIGNAL or FINISH right before it. -/
@[match_pattern] def endMark : Opcode := 0x0C
/-- Announces an interrupt that the list outlives. -/
@[match_pattern] def signal : Opcode := 0x0E
/-- Announces the end of the list. -/
@[match_pattern] def finish : Opcode := 0x0F
/-- Holds the upper bits of later targets. -/
@[match_pattern] def base : Opcode := 0x10
/-- Sets the offset that later targets are counted from. -/
@[match_pattern] def offset : Opcode := 0x13
/-- Makes the current address the offset that later targets are counted from. -/
@[match_pattern] def origin : Opcode := 0x14

/-- The commands that steer the engine itself and are not handed to the renderer. -/
def controls : List Opcode :=
  [nop, jump, call, ret, endMark, signal, finish, offset, origin]

/-- The command steers the engine itself. -/
def isControl (opcode : Opcode)
    : Bool :=
  controls.contains opcode

/-- The mnemonic of a command that has one. -/
def name?
    : Opcode → Option String
  | 0x00 => some "NOP"
  | 0x01 => some "VADDR"
  | 0x02 => some "IADDR"
  | 0x04 => some "PRIM"
  | 0x05 => some "BEZIER"
  | 0x06 => some "SPLINE"
  | 0x07 => some "BOUNDINGBOX"
  | 0x08 => some "JUMP"
  | 0x09 => some "BJUMP"
  | 0x0A => some "CALL"
  | 0x0B => some "RET"
  | 0x0C => some "END"
  | 0x0E => some "SIGNAL"
  | 0x0F => some "FINISH"
  | 0x10 => some "BASE"
  | 0x12 => some "VERTEXTYPE"
  | 0x13 => some "OFFSETADDR"
  | 0x14 => some "ORIGIN"
  | _ => none

end Opcode

namespace Word

/-- The byte that selects the command. -/
def opcode (word : Word)
    : Opcode :=
  (word >>> 24).toUInt8

/-- The 24-bit operand. -/
def operand (word : Word)
    : UInt32 :=
  word &&& 0x00FFFFFF

/-- The word of a command; bits of the operand above the 24th are dropped. -/
def encode (opcode : Opcode) (operand : UInt32)
    : Word :=
  (opcode.toUInt32 <<< 24) ||| (operand &&& 0x00FFFFFF)

/-- The low half of the word. -/
def low (word : Word)
    : UInt16 :=
  word.toUInt16

/-- Bits 16 to 23, the upper byte of the operand. -/
def middle (word : Word)
    : UInt8 :=
  (word >>> 16).toUInt8

end Word

/-- What a command word asks for. -/
inductive Command where
  | nop
  | jump (operand : UInt32)
  | call (operand : UInt32)
  | ret
  | endMark (operand : UInt32)
  | signal
  | finish
  | offset (operand : UInt32)
  | origin
  | render (opcode : Opcode) (operand : UInt32)
deriving DecidableEq, Repr

/-- Every word is a command: what does not steer the engine is for the renderer. -/
def Command.ofWord (word : Word)
    : Command :=
  match word.opcode with
  | Opcode.nop => .nop
  | Opcode.jump => .jump word.operand
  | Opcode.call => .call word.operand
  | Opcode.ret => .ret
  | Opcode.endMark => .endMark word.operand
  | Opcode.signal => .signal
  | Opcode.finish => .finish
  | Opcode.offset => .offset word.operand
  | Opcode.origin => .origin
  | opcode => .render opcode word.operand

end GraphicsEngine
