import ChipEight.Machine.CallStack
import ChipEight.Machine.Memory
import ChipEight.Machine.Registers

/-!
# The flow of control

Jumps, calls, returns and skips. They run after the fetch, so the program counter already points behind the instruction. Every
check comes before anything is changed: a fault leaves registers and stack as they were.
-/

namespace ChipEight.Flow

/-- How many bytes an instruction takes. -/
def instructionBytes : UInt16 := 2

/-- Continues at an address. -/
def jump (r : Registers) (address : Nat) : Except Fault Registers :=
  if Memory.isExecutable address then .ok (r.setPc (UInt16.ofNat address)) else .error (.outOfRange address)

/-- Where an indirect jump goes. The sum is not cut to sixteen bits. -/
def indirectTarget (base : UInt8) (offset : UInt16) : Nat := base.toNat + offset.toNat

/-- Calls the subroutine at an address. A full stack is found before a bad address. -/
def call (r : Registers) (s : CallStack) (target : UInt16) : Except Fault (Registers × CallStack) := do
  let s ← s.push r.pc (r.pc - instructionBytes)
  if Memory.isExecutable target.toNat then .ok (r.setPc target, s) else .error (.outOfRange target.toNat)

/-- Returns from the latest call. -/
def ret (r : Registers) (s : CallStack) : Except Fault (Registers × CallStack) := do
  let (frame, s) ← s.pop (r.pc - instructionBytes)
  .ok (r.setPc frame, s)

/-- Steps over the next instruction when a condition holds. -/
def skipIf (r : Registers) (condition : Bool) : Except Fault Registers :=
  if condition then jump r (r.pc.toNat + instructionBytes.toNat) else .ok r

end ChipEight.Flow
