import ChipEight.Instruction.Opcode

/-!
# Instructions

What a word can ask the machine to do. The comment at each constructor is the pattern of its words.
-/

namespace ChipEight

/-- The operations on two registers. -/
inductive Operation where
  /-- 8xy0 -/
  | copy
  /-- 8xy1 -/
  | or
  /-- 8xy2 -/
  | and
  /-- 8xy3 -/
  | xor
  /-- 8xy4 -/
  | add
  /-- 8xy5 -/
  | subtract
  /-- 8xy6 -/
  | shiftRight
  /-- 8xy7 -/
  | reverseSubtract
  /-- 8xyE -/
  | shiftLeft
  deriving DecidableEq, Repr

/-- Instructions of later machines. They are known and do nothing here. -/
inductive Extension where
  /-- 00Cn -/
  | scrollDown (n : UInt8)
  /-- 00FB -/
  | scrollRight
  /-- 00FC -/
  | scrollLeft
  /-- 00FE -/
  | lowResolution
  /-- 00FF -/
  | highResolution
  /-- Fx30 -/
  | bigGlyph (x : Register)
  /-- Fx70 -/
  | serialOut (x : Register)
  /-- Fx71 -/
  | serialIn (x : Register)
  /-- Fx72 -/
  | setBaud (x : Register)
  /-- Fx75 -/
  | saveFlags (x : Register)
  /-- Fx85 -/
  | loadFlags (x : Register)
  deriving DecidableEq, Repr

/-- The instructions of the machine. -/
inductive Instruction where
  /-- 0000, does nothing -/
  | nop
  /-- 00E0, all pixels off -/
  | clear
  /-- 00EE, back to after the latest call -/
  | ret
  /-- 00FD, back to the start of the program -/
  | restart
  /-- 1nnn -/
  | jump (target : UInt16)
  /-- 2nnn -/
  | call (target : UInt16)
  /-- 3xnn, skip when Vx is nn -/
  | skipIfByte (x : Register) (byte : UInt8)
  /-- 4xnn, skip when Vx is not nn -/
  | skipUnlessByte (x : Register) (byte : UInt8)
  /-- 5xyN for every N, skip when Vx is Vy -/
  | skipIfSame (x y : Register)
  /-- 6xnn -/
  | setByte (x : Register) (byte : UInt8)
  /-- 7xnn, carry in VF -/
  | addByte (x : Register) (byte : UInt8)
  /-- 8xyN -/
  | operate (op : Operation) (x y : Register)
  /-- 9xyN for every N, skip when Vx is not Vy -/
  | skipUnlessSame (x y : Register)
  /-- Annn -/
  | setIndex (target : UInt16)
  /-- Bnnn, jump to nnn + V0 -/
  | jumpIndirect (target : UInt16)
  /-- Cxnn, a random byte masked by nn -/
  | random (x : Register) (mask : UInt8)
  /-- Dxyn, a sprite of n rows at (Vx, Vy) -/
  | draw (x y : Register) (n : UInt8)
  /-- Ex9E, skip when the key Vx is down -/
  | skipIfKey (x : Register)
  /-- ExA1, skip when the key Vx is not down -/
  | skipUnlessKey (x : Register)
  /-- Fx00, end with Vx as the exit code -/
  | stop (x : Register)
  /-- Fx07 -/
  | readDelay (x : Register)
  /-- Fx0A, wait for a key -/
  | waitKey (x : Register)
  /-- Fx15 -/
  | setDelay (x : Register)
  /-- Fx17, play the note Vx from now on -/
  | setPitch (x : Register)
  /-- Fx18 -/
  | setSound (x : Register)
  /-- Fx1E -/
  | addIndex (x : Register)
  /-- Fx29, I to the glyph of Vx -/
  | glyph (x : Register)
  /-- Fx33, the three decimal digits of Vx to memory -/
  | decimal (x : Register)
  /-- Fx55, V0 to Vx to memory -/
  | store (x : Register)
  /-- Fx65, V0 to Vx from memory -/
  | restore (x : Register)
  | extension (e : Extension)
  deriving DecidableEq, Repr

/-- The address an instruction points at, if it names one. -/
def Instruction.target? : Instruction → Option UInt16
  | .jump a | .call a | .setIndex a | .jumpIndirect a => some a
  | _ => none

end ChipEight
