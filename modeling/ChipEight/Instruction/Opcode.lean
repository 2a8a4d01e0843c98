/-!
# Opcodes and their fields

Every instruction is one 16-bit word. Its top nibble picks a group, and the rest is read as register numbers `x` and `y`, a
nibble `n`, a low byte or a 12-bit address `nnn`, whichever the group calls for. Every word has all of these fields.
-/

namespace ChipEight

/-- The number of one of the sixteen registers V0 to VF. -/
abbrev Register := Fin 16

/-- V0, from which indirect jumps and runs of registers start. -/
abbrev firstRegister : Register := 0

/-- VF, which doubles as the flag. -/
abbrev flagRegister : Register := 15

/-- A word that may be an instruction. -/
structure Opcode where
  word : UInt16
  deriving DecidableEq, Repr

namespace Opcode

/-- The word of two bytes, the high one first. -/
def ofBytes (high low : UInt8) : Opcode := ⟨high.toUInt16 * 256 + low.toUInt16⟩

/-- The top nibble. -/
def group (op : Opcode) : Fin 16 := Fin.ofNat 16 (op.word.toNat / 4096)

/-- The second nibble, as a register. -/
def x (op : Opcode) : Register := Fin.ofNat 16 (op.word.toNat / 256)

/-- The third nibble, as a register. -/
def y (op : Opcode) : Register := Fin.ofNat 16 (op.word.toNat / 16)

/-- The lowest nibble. -/
def n (op : Opcode) : UInt8 := UInt8.ofNat (op.word.toNat % 16)

/-- The high byte. -/
def high (op : Opcode) : UInt8 := UInt8.ofNat (op.word.toNat / 256)

/-- The low byte. -/
def low (op : Opcode) : UInt8 := UInt8.ofNat (op.word.toNat % 256)

/-- The low twelve bits. -/
def nnn (op : Opcode) : UInt16 := UInt16.ofNat (op.word.toNat % 4096)

end Opcode

end ChipEight
