import ChipEight.Instruction.Basic
import ChipEight.Text.Hex

/-!
# Instructions as text

An instruction is written as a short name in a column of five characters, then its operands with a comma and a space between
them. An instruction without operands is its name alone. `Instruction.textWith` leaves open how an address is written, so that a
listing can put a label in its place.
-/

namespace ChipEight

/-- What can stand behind the name of an instruction. -/
inductive Operand where
  | register (r : Register)
  | byte (b : UInt8)
  | nibble (n : UInt8)
  | address (a : UInt16)
  /-- the index register -/
  | index
  /-- memory from the index on -/
  | atIndex
  | delayTimer
  | soundTimer
  | key
  | pitch
  | glyph
  | bigGlyph
  | decimal
  | flags
  | baud
  deriving DecidableEq, Repr

/-- How an operand is written, given how an address is. -/
def Operand.textWith (address : UInt16 → String) : Operand → String
  | .register r => "v" ++ Text.hex 1 r.val
  | .byte b => Text.hexNumber 2 b.toNat
  | .nibble n => Text.hexNumber 1 n.toNat
  | .address a => address a
  | .index => "i"
  | .atIndex => "[i]"
  | .delayTimer => "dt"
  | .soundTimer => "st"
  | .key => "k"
  | .pitch => "pitch"
  | .glyph => "f"
  | .bigGlyph => "hf"
  | .decimal => "b"
  | .flags => "r"
  | .baud => "baud"

/-- The name of an operation on two registers. -/
def Operation.name : Operation → String
  | .copy => "ld"
  | .or => "or"
  | .and => "and"
  | .xor => "xor"
  | .add => "add"
  | .subtract => "sub"
  | .shiftRight => "shr"
  | .reverseSubtract => "subn"
  | .shiftLeft => "shl"

namespace Extension

/-- The name of an extension. -/
def name : Extension → String
  | .scrollDown _ => "scd"
  | .scrollRight => "scr"
  | .scrollLeft => "scl"
  | .lowResolution => "low"
  | .highResolution => "high"
  | .serialOut _ => "out"
  | .serialIn _ => "in"
  | .bigGlyph _ | .setBaud _ | .saveFlags _ | .loadFlags _ => "ld"

/-- The operands of an extension. -/
def operands : Extension → List Operand
  | .scrollDown n => [.nibble n]
  | .scrollRight | .scrollLeft | .lowResolution | .highResolution => []
  | .bigGlyph x => [.bigGlyph, .register x]
  | .serialOut x | .serialIn x => [.register x]
  | .setBaud x => [.baud, .register x]
  | .saveFlags x => [.flags, .register x]
  | .loadFlags x => [.register x, .flags]

end Extension

namespace Instruction

/-- The name of an instruction, at most five characters. -/
def name : Instruction → String
  | .nop => "nop"
  | .clear => "cls"
  | .ret => "ret"
  | .restart => "rst"
  | .jump _ | .jumpIndirect _ => "jp"
  | .call _ => "call"
  | .skipIfByte _ _ | .skipIfSame _ _ => "se"
  | .skipUnlessByte _ _ | .skipUnlessSame _ _ => "sne"
  | .addByte _ _ | .addIndex _ => "add"
  | .operate op _ _ => op.name
  | .random _ _ => "rnd"
  | .draw _ _ _ => "drw"
  | .skipIfKey _ => "skp"
  | .skipUnlessKey _ => "sknp"
  | .stop _ => "stop"
  | .setByte _ _ | .setIndex _ | .readDelay _ | .waitKey _ | .setDelay _ | .setPitch _ | .setSound _ | .glyph _ | .decimal _
  | .store _ | .restore _ => "ld"
  | .extension e => e.name

/-- The operands of an instruction, in the order in which they are written. -/
def operands : Instruction → List Operand
  | .nop | .clear | .ret | .restart => []
  | .jump a | .call a => [.address a]
  | .skipIfByte x b | .skipUnlessByte x b | .setByte x b | .addByte x b | .random x b => [.register x, .byte b]
  | .skipIfSame x y | .skipUnlessSame x y | .operate _ x y => [.register x, .register y]
  | .setIndex a => [.index, .address a]
  | .jumpIndirect a => [.register firstRegister, .address a]
  | .draw x y n => [.register x, .register y, .nibble n]
  | .skipIfKey x | .skipUnlessKey x | .stop x => [.register x]
  | .readDelay x => [.register x, .delayTimer]
  | .waitKey x => [.register x, .key]
  | .setDelay x => [.delayTimer, .register x]
  | .setPitch x => [.pitch, .register x]
  | .setSound x => [.soundTimer, .register x]
  | .addIndex x => [.index, .register x]
  | .glyph x => [.glyph, .register x]
  | .decimal x => [.decimal, .register x]
  | .store x => [.atIndex, .register x]
  | .restore x => [.register x, .atIndex]
  | .extension e => e.operands

/-- The text of an instruction, given how an address is written. -/
def textWith (address : UInt16 → String) (i : Instruction) : String :=
  match i.operands with
  | [] => i.name
  | operands => Text.column 5 i.name ++ ", ".intercalate (operands.map (Operand.textWith address))

/-- An address as an operand: at least three hexadecimal digits. -/
def addressText (a : UInt16) : String := Text.hexNumber 3 a.toNat

/-- The text of an instruction, with addresses as numbers. -/
def text (i : Instruction) : String := i.textWith addressText

end Instruction

/-- The text of an extension. -/
def Extension.text (e : Extension) : String := (Instruction.extension e).text

end ChipEight
