import ChipEight.Keypad.Gate
import ChipEight.Machine.Arithmetic
import ChipEight.Machine.Timers
import ChipEight.Machine.Transfer
import ChipEight.Random.ByteStream
import ChipEight.Screen.Sprite
import ChipEight.Session.Effect
import ChipEight.Session.Status

/-!
# Sessions

A session is the whole state of one run of a program, with the surface it draws on. Its operations are plain functions: what the
keypad answers is given to them, and what they tell the outside comes back as a list of effects, in order.

A running session halts when the program counter reaches the end of the program, at a stop instruction, when a key instruction or
a poll sees the wish to end, and at a fault. It then stays halted until another program is loaded. Ticks of the timers are no
instructions and do not depend on the status.
-/

namespace ChipEight

/-- The state of one run. -/
structure Session (σ : Type) where
  memory : Memory
  registers : Registers
  stack : CallStack
  timers : Timers
  dialect : Dialect
  random : ByteStream
  surface : σ
  status : Status

/-- What executing an instruction comes to: the session after it, what was told, and the reason to halt if there is one. -/
structure Execution (σ : Type) where
  session : Session σ
  effects : List Effect
  halt : Option HaltReason

namespace Session

variable {σ : Type}

/-- A session without a program. -/
def fresh (dialect : Dialect) (random : ByteStream) (surface : σ) : Session σ where
  memory := .fresh
  registers := .start Memory.programStart
  stack := .empty
  timers := .zero
  dialect := dialect
  random := random
  surface := surface
  status := .running

/-- The session with other registers. -/
def withRegisters (s : Session σ) (r : Registers) : Session σ := { s with registers := r }

/-- The session halted for a reason. -/
def halt (s : Session σ) (reason : HaltReason) : Session σ := { s with status := .halted reason }

/-- Loads a program at an address and goes to its start. If it cannot be loaded, nothing changes. -/
def load (s : Session σ) (program : List UInt8) (address : UInt16) : Option Fault × Session σ :=
  match s.memory.load program address with
  | .error f => (some f, s)
  | .ok m => (none, { s with memory := m, registers := s.registers.setPc address, status := .running })

/-- One tick of the timers. -/
def tick (s : Session σ) : Session σ × List Effect :=
  let ticked := s.timers.tick
  ({ s with timers := ticked.1 }, ticked.2.map .speaker)

/-- Ends a running session if the wish to end is latched. A halted session does not look. -/
def poll (s : Session σ) (latched : Option Keypress) : Session σ × List Effect :=
  match s.status with
  | .halted _ => (s, [])
  | .running => (if latched = some .cancel then s.halt .cancelled else s, [.keyLook])

/-- Asks the surface to show what changed. -/
def present [Surface σ] (s : Session σ) : Option DeviceError × Session σ :=
  let presented := Surface.present s.surface
  (presented.1, { s with surface := presented.2 })

end Session

namespace Execution

variable {σ : Type}

/-- The session goes on. -/
def proceed (s : Session σ) (effects : List Effect := []) : Execution σ := ⟨s, effects, none⟩

/-- The session ends. -/
def stop (s : Session σ) (reason : HaltReason) (effects : List Effect := []) : Execution σ := ⟨s, effects, some reason⟩

/-- The session goes on with other registers, or ends with a fault. -/
def ofRegisters (s : Session σ) (effects : List Effect) : Except Fault Registers → Execution σ
  | .ok r => proceed (s.withRegisters r) effects
  | .error f => stop s (.fault f) effects

/-- The session goes on with other registers and another stack, or ends with a fault. -/
def ofFlow (s : Session σ) (effects : List Effect) : Except Fault (Registers × CallStack) → Execution σ
  | .ok (r, k) => proceed { s with registers := r, stack := k } effects
  | .error f => stop s (.fault f) effects

/-- The session goes on with what a look at the keypad made of the registers, or ends. -/
def ofGate (s : Session σ) : Except Fault Gate → Execution σ
  | .ok (.proceed r) => proceed (s.withRegisters r) [.keyLook]
  | .ok .cancelled => stop s .cancelled [.keyLook]
  | .error f => stop s (.fault f) [.keyLook]

end Execution

end ChipEight
