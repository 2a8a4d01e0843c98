import ChipEight.Instruction.Decode
import ChipEight.Session.Basic

/-!
# One instruction

`Session.step` fetches the word at the program counter, moves the counter past it, and executes it. The end of the program is
found before the fetch, a word that is no instruction after it.
-/

namespace ChipEight.Session

variable {σ : Type} [Surface σ]

/-- Executes an instruction that was fetched from an address. `latched` is what the keypad answers if it is looked at. -/
def execute (s : Session σ) (address : UInt16) (latched : Option Keypress) : Instruction → Execution σ
  | .nop => .proceed s
  | .clear => .proceed { s with surface := Surface.clear s.surface }
  | .ret => .ofFlow s [] (Flow.ret s.registers s.stack)
  | .restart => .proceed (s.withRegisters (s.registers.setPc s.memory.programAddress))
  | .jump target => .ofRegisters s [.entryPoint target] (Flow.jump s.registers target.toNat)
  | .call target => .ofFlow s [.entryPoint target] (Flow.call s.registers s.stack target)
  | .skipIfByte x byte => .ofRegisters s [] (Flow.skipIf s.registers (s.registers.get x == byte))
  | .skipUnlessByte x byte => .ofRegisters s [] (Flow.skipIf s.registers (s.registers.get x != byte))
  | .skipIfSame x y => .ofRegisters s [] (Flow.skipIf s.registers (s.registers.get x == s.registers.get y))
  | .skipUnlessSame x y => .ofRegisters s [] (Flow.skipIf s.registers (s.registers.get x != s.registers.get y))
  | .setByte x byte => .proceed (s.withRegisters (s.registers.set x byte))
  | .addByte x byte => .proceed (s.withRegisters (s.registers.add x byte))
  | .operate op x y => .proceed (s.withRegisters (s.registers.operate s.dialect op x y))
  | .setIndex target => .proceed (s.withRegisters (s.registers.setIndex target)) [.entryPoint target]
  | .jumpIndirect target =>
    let base := s.registers.get firstRegister
    .ofRegisters s [.entryPoint (target + base.toUInt16)] (Flow.jump s.registers (Flow.indirectTarget base target))
  | .random x mask =>
    let drawn := s.random.next
    .proceed { s with registers := s.registers.set x (drawn.1 &&& mask), random := drawn.2 }
  | .draw x y n =>
    match Sprite.draw s.dialect s.memory s.surface s.registers x y n with
    | (r, .ok surface) => .proceed { s with registers := r, surface := surface }
    | (r, .error f) => .stop (s.withRegisters r) (.fault f)
  | .skipIfKey x => .ofGate s (Gate.skip s.registers latched (s.registers.get x) true)
  | .skipUnlessKey x => .ofGate s (Gate.skip s.registers latched (s.registers.get x) false)
  | .waitKey x => .ofGate s (.ok (Gate.wait s.registers latched x))
  | .stop x => .stop s (.exit (s.registers.get x))
  | .readDelay x => .proceed (s.withRegisters (s.registers.set x s.timers.delay.left))
  | .setDelay x => .proceed { s with timers := s.timers.setDelay (s.registers.get x) }
  | .setSound x =>
    let changed := s.timers.setSound (s.registers.get x)
    .proceed { s with timers := changed.1 } [.speaker changed.2]
  | .setPitch x => .proceed s ((Tone.note? (s.registers.get x)).toList.map fun hertz => .speaker (.pitch hertz))
  | .addIndex x => .proceed (s.withRegisters (s.registers.setIndex (s.registers.index + (s.registers.get x).toUInt16)))
  | .glyph x => .proceed (s.withRegisters (s.registers.setIndex (Font.glyphAddress (s.registers.get x))))
  | .decimal x =>
    match Transfer.storeDecimal s.dialect s.memory s.registers (s.registers.get x) with
    | .ok (m, r) => .proceed { s with memory := m, registers := r }
    | .error f => .stop s (.fault f)
  | .store x =>
    match Transfer.store s.dialect s.memory s.registers firstRegister x with
    | (m, .ok r) => .proceed { s with memory := m, registers := r }
    | (m, .error f) => .stop { s with memory := m } (.fault f)
  | .restore x =>
    match Transfer.restore s.dialect s.memory s.registers firstRegister x with
    | (r, none) => .proceed (s.withRegisters r)
    | (r, some f) => .stop (s.withRegisters r) (.fault f)
  | .extension e => .proceed s [.ignored address e]

/-- Fetches the word at the program counter, if the counter is still inside the program and the word inside memory. -/
def fetch (s : Session σ) : Except HaltReason Opcode :=
  let address := s.registers.pc.toNat
  if s.memory.programEnd ≤ address then .error .endOfProgram
  else (s.memory.word address).mapError .fault

/-- The session with the program counter past the fetched word. -/
def advance (s : Session σ) : Session σ := s.withRegisters (s.registers.setPc (s.registers.pc + Flow.instructionBytes))

/-- One instruction of a running session. A halted session stays as it is. `latched` is what the keypad answers if it is looked
at. -/
def step (s : Session σ) (latched : Option Keypress) : Session σ × List Effect :=
  match s.status with
  | .halted _ => (s, [])
  | .running =>
    match s.fetch with
    | .error reason => (s.halt reason, [])
    | .ok opcode =>
      let address := s.registers.pc
      match Instruction.decode opcode with
      | none => (s.advance.halt (.fault (.undefinedOpcode opcode.word address)), [])
      | some instruction =>
        let done := s.advance.execute address latched instruction
        let told := done.effects ++ [.executed ⟨address, opcode, instruction, done.session.registers⟩]
        match done.halt with
        | none => (done.session, told)
        | some reason => (done.session.halt reason, told)

end ChipEight.Session
