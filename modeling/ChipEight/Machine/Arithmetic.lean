import ChipEight.Dialect
import ChipEight.Instruction.Basic
import ChipEight.Machine.Registers

/-!
# Arithmetic

The operations on registers, 8xyN and 7xnn. All arithmetic wraps at eight bits. An operation with a flag writes its result first
and VF after it.
-/

namespace ChipEight.Registers

/-- Vx plus a value. The flag is the carry out of the top bit. -/
def add (r : Registers) (x : Register) (value : UInt8) : Registers :=
  let a := r.get x
  (r.set x (a + value)).setFlag (decide (256 ≤ a.toNat + value.toNat))

/-- Vx less a value. The flag is set when there was no borrow. -/
def subtract (r : Registers) (x : Register) (value : UInt8) : Registers :=
  let a := r.get x
  (r.set x (a - value)).setFlag (decide (value ≤ a))

/-- A value less Vx. The flag is set when there was no borrow. -/
def reverseSubtract (r : Registers) (x : Register) (value : UInt8) : Registers :=
  let a := r.get x
  (r.set x (value - a)).setFlag (decide (a ≤ value))

/-- Vx or Vy shifted right by one bit, as the dialect has it. Only a shift in place writes the flag. -/
def shiftRight (r : Registers) (d : Dialect) (x y : Register) : Registers :=
  if d.shiftsInPlace then
    let a := r.get x
    (r.set x (a >>> 1)).set flagRegister (a &&& 1)
  else r.set x (r.get y >>> 1)

/-- Vx or Vy shifted left by one bit, as the dialect has it. Only a shift in place writes the flag. -/
def shiftLeft (r : Registers) (d : Dialect) (x y : Register) : Registers :=
  if d.shiftsInPlace then
    let a := r.get x
    (r.set x (a <<< 1)).set flagRegister (a >>> 7)
  else r.set x (r.get y <<< 1)

/-- One operation on two registers. Vy is read before anything is written. -/
def operate (r : Registers) (d : Dialect) (op : Operation) (x y : Register) : Registers :=
  let b := r.get y
  match op with
  | .copy => r.set x b
  | .or => r.set x (r.get x ||| b)
  | .and => r.set x (r.get x &&& b)
  | .xor => r.set x (r.get x ^^^ b)
  | .add => r.add x b
  | .subtract => r.subtract x b
  | .reverseSubtract => r.reverseSubtract x b
  | .shiftRight => r.shiftRight d x y
  | .shiftLeft => r.shiftLeft d x y

end ChipEight.Registers
