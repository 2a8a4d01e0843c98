import ChipEight.Instruction.Basic

/-!
# From words to instructions

`Instruction.decode` reads a word by its group. A word that no pattern covers is no instruction.
-/

namespace ChipEight

/-- The operation with a given number. -/
def Operation.ofNibble? : UInt8 → Option Operation
  | 0x0 => some .copy
  | 0x1 => some .or
  | 0x2 => some .and
  | 0x3 => some .xor
  | 0x4 => some .add
  | 0x5 => some .subtract
  | 0x6 => some .shiftRight
  | 0x7 => some .reverseSubtract
  | 0xe => some .shiftLeft
  | _ => none

namespace Instruction

/-- The instructions of group 0. These are whole words, but for the row count of a scroll. -/
def decodeSystem (op : Opcode) : Option Instruction :=
  match op.word with
  | 0x0000 => some .nop
  | 0x00e0 => some .clear
  | 0x00ee => some .ret
  | 0x00fb => some (.extension .scrollRight)
  | 0x00fc => some (.extension .scrollLeft)
  | 0x00fd => some .restart
  | 0x00fe => some (.extension .lowResolution)
  | 0x00ff => some (.extension .highResolution)
  | w => if w.toNat / 16 = 0x00c then some (.extension (.scrollDown op.n)) else none

/-- The key instructions, told apart by the low byte. -/
def decodeKey (x : Register) : UInt8 → Option Instruction
  | 0x9e => some (.skipIfKey x)
  | 0xa1 => some (.skipUnlessKey x)
  | _ => none

/-- The instructions of group F, told apart by the low byte. -/
def decodeMisc (x : Register) : UInt8 → Option Instruction
  | 0x00 => some (.stop x)
  | 0x07 => some (.readDelay x)
  | 0x0a => some (.waitKey x)
  | 0x15 => some (.setDelay x)
  | 0x17 => some (.setPitch x)
  | 0x18 => some (.setSound x)
  | 0x1e => some (.addIndex x)
  | 0x29 => some (.glyph x)
  | 0x30 => some (.extension (.bigGlyph x))
  | 0x33 => some (.decimal x)
  | 0x55 => some (.store x)
  | 0x65 => some (.restore x)
  | 0x70 => some (.extension (.serialOut x))
  | 0x71 => some (.extension (.serialIn x))
  | 0x72 => some (.extension (.setBaud x))
  | 0x75 => some (.extension (.saveFlags x))
  | 0x85 => some (.extension (.loadFlags x))
  | _ => none

/-- The instruction a word stands for, if it is one. -/
def decode (op : Opcode) : Option Instruction :=
  match op.group.val with
  | 0x0 => decodeSystem op
  | 0x1 => some (.jump op.nnn)
  | 0x2 => some (.call op.nnn)
  | 0x3 => some (.skipIfByte op.x op.low)
  | 0x4 => some (.skipUnlessByte op.x op.low)
  | 0x5 => some (.skipIfSame op.x op.y)
  | 0x6 => some (.setByte op.x op.low)
  | 0x7 => some (.addByte op.x op.low)
  | 0x8 => (Operation.ofNibble? op.n).map (.operate · op.x op.y)
  | 0x9 => some (.skipUnlessSame op.x op.y)
  | 0xa => some (.setIndex op.nnn)
  | 0xb => some (.jumpIndirect op.nnn)
  | 0xc => some (.random op.x op.low)
  | 0xd => some (.draw op.x op.y op.n)
  | 0xe => decodeKey op.x op.low
  | 0xf => decodeMisc op.x op.low
  | _ => none

end Instruction

end ChipEight
