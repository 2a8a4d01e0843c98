import ChipEight.Fault

/-!
# Whether a session goes on

A session runs until it halts, and it halts for one of four reasons.
-/

namespace ChipEight

/-- Why a session halted. -/
inductive HaltReason where
  /-- The program counter reached the end of the program. -/
  | endOfProgram
  /-- A stop instruction, with its exit code. -/
  | exit (code : UInt8)
  /-- The user wished it. -/
  | cancelled
  /-- The program did something wrong. -/
  | fault (f : Fault)
  deriving DecidableEq, Repr

/-- What a process that ran the session exits with. -/
def HaltReason.exitCode : HaltReason → Nat
  | .exit code => code.toNat
  | .endOfProgram | .cancelled => 0
  | .fault _ => 1

/-- Whether a session goes on. -/
inductive Status where
  | running
  | halted (reason : HaltReason)
  deriving DecidableEq, Repr

/-- Whether a session has halted. -/
def Status.isHalted : Status → Bool
  | .running => false
  | .halted _ => true

end ChipEight
