import ChipEight.Keypad.Keypress
import ChipEight.Machine.Flow

/-!
# Instructions that look at the keypad

A cancel is never compared with anything: whichever key instruction sees it ends the session.
-/

namespace ChipEight

/-- How a key instruction ends. -/
inductive Gate where
  /-- The session goes on with these registers. -/
  | proceed (r : Registers)
  /-- The session ends. -/
  | cancelled
  deriving DecidableEq

namespace Gate

/-- Skips the next instruction when the expected key is latched (`pressed`), or when it is not. -/
def skip (r : Registers) (latched : Option Keypress) (expected : UInt8) (pressed : Bool) : Except Fault Gate :=
  if latched = some .cancel then .ok .cancelled
  else do
    let r ← Flow.skipIf r (decide (latched = some (.key expected)) == pressed)
    .ok (.proceed r)

/-- Stores the latched key in Vx. With no key latched the program counter goes back to this instruction, so that it runs again;
nothing else changes while it waits. -/
def wait (r : Registers) (latched : Option Keypress) (x : Register) : Gate :=
  match latched with
  | some .cancel => .cancelled
  | some (.key k) => .proceed (r.set x k)
  | none => .proceed (r.setPc (r.pc - Flow.instructionBytes))

end Gate

end ChipEight
