import ChipEight.Instruction.Basic
import ChipEight.Machine.Registers
import ChipEight.Machine.Timers

/-!
# What a session tells the outside

A session changes its own state and, beside that, tells the devices around it things. Nothing of what they make of it comes back.
-/

namespace ChipEight

/-- One executed instruction. -/
structure StepRecord where
  /-- Where it was fetched from. -/
  address : UInt16
  opcode : Opcode
  instruction : Instruction
  /-- The registers after it. -/
  registers : Registers
  deriving DecidableEq

/-- Something a session tells the outside. -/
inductive Effect where
  /-- The speaker is asked to do something. -/
  | speaker (call : SpeakerCall)
  /-- The keypad was looked at. -/
  | keyLook
  /-- A jump, a call or an index instruction is about to use an address. -/
  | entryPoint (address : UInt16)
  /-- An instruction was executed, whether or not it ended the session. -/
  | executed (step : StepRecord)
  /-- An extension was ignored. -/
  | ignored (address : UInt16) (extension : Extension)
  deriving DecidableEq

end ChipEight
