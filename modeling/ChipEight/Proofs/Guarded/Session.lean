import ChipEight.Proofs.Guarded.Screen
import ChipEight.Proofs.Lemmas.Decode
import ChipEight.Proofs.Lemmas.Range
import ChipEight.Session.Action

/-!
# Sessions with every test made

The operations of a session on a framebuffer, from the tested ones of its parts. The register numbers of an instruction are cut out
of its word. For a session in range each operation is the one without the tests.
-/

namespace ChipEight.Guarded

variable {r : Resolution}

/-! ## Operands -/

/-- The second nibble of a word. -/
def operandX (op : Opcode) : Nat := ((op.word >>> 8) &&& 0xf).toNat

/-- The third nibble of a word. -/
def operandY (op : Opcode) : Nat := ((op.word >>> 4) &&& 0xf).toNat

/-- The second nibble is the number of a register. -/
theorem operandX_eq (op : Opcode) : operandX op = op.x.val := by
  rw [operandX, UInt16.toNat_and, UInt16.toNat_shiftRight, Nat.shiftRight_eq_div_pow]
  exact Nat.and_two_pow_sub_one_eq_mod (op.word.toNat / 256) 4

/-- The third nibble is the number of a register. -/
theorem operandY_eq (op : Opcode) : operandY op = op.y.val := by
  rw [operandY, UInt16.toNat_and, UInt16.toNat_shiftRight, Nat.shiftRight_eq_div_pow]
  exact Nat.and_two_pow_sub_one_eq_mod (op.word.toNat / 16) 4

/-! ## Keys -/

/-- Skips the next instruction when the expected key is latched (`pressed`), or when it is not. -/
def skipKey (regs : Registers) (latched : Option Keypress) (expected : UInt8) (pressed : Bool) :
    Guarded (Except Fault Gate) := do
  if latched = some .cancel then return .ok .cancelled
  else
    match ← skipIf regs (decide (latched = some (.key expected)) == pressed) with
    | .error f => return .error f
    | .ok regs => return .ok (.proceed regs)

/-- Stores the latched key in Vx, or goes back to the instruction. -/
def waitKey (regs : Registers) (latched : Option Keypress) (x : Nat) : Guarded Gate := do
  match latched with
  | some .cancel => return .cancelled
  | some (.key k) => return .proceed (← withRegister regs x k)
  | none => return .proceed (regs.setPc (regs.pc - Flow.instructionBytes))

/-- A skip on a key does not trap. -/
theorem skipKey_eq (regs : Registers) (latched : Option Keypress) (expected : UInt8) (pressed : Bool) :
    skipKey regs latched expected pressed = .ok (Gate.skip regs latched expected pressed) := by
  unfold skipKey Gate.skip
  split
  · rfl
  · rw [skipIf_eq, ok_bind]
    cases Flow.skipIf regs (decide (latched = some (.key expected)) == pressed) <;> rfl

/-- To wait for a key does not trap. -/
theorem waitKey_eq (regs : Registers) (latched : Option Keypress) (x : Register) :
    waitKey regs latched x.val = .ok (Gate.wait regs latched x) := by
  rcases latched with _ | ⟨k⟩ | _
  · rfl
  · rw [waitKey, withRegister_val]
    rfl
  · rfl

/-! ## Instructions -/

/-- Executes an instruction whose registers have the numbers `x` and `y`. -/
def execute (s : Session (Framebuffer r)) (address : UInt16) (latched : Option Keypress) (x y : Nat) :
    Instruction → Guarded (Execution (Framebuffer r))
  | .nop => return .proceed s
  | .clear => return .proceed { s with surface := Surface.clear s.surface }
  | .ret => return .ofFlow s [] (← ret s.registers s.stack)
  | .restart => return .proceed (s.withRegisters (s.registers.setPc s.memory.programAddress))
  | .jump target => return .ofRegisters s [.entryPoint target] (Flow.jump s.registers target.toNat)
  | .call target => return .ofFlow s [.entryPoint target] (← call s.registers s.stack target)
  | .skipIfByte _ byte => return .ofRegisters s [] (← skipIf s.registers ((← register s.registers x) == byte))
  | .skipUnlessByte _ byte => return .ofRegisters s [] (← skipIf s.registers ((← register s.registers x) != byte))
  | .skipIfSame _ _ => do
    let vx ← register s.registers x
    let vy ← register s.registers y
    return .ofRegisters s [] (← skipIf s.registers (vx == vy))
  | .skipUnlessSame _ _ => do
    let vx ← register s.registers x
    let vy ← register s.registers y
    return .ofRegisters s [] (← skipIf s.registers (vx != vy))
  | .setByte _ byte => return .proceed (s.withRegisters (← withRegister s.registers x byte))
  | .addByte _ byte => return .proceed (s.withRegisters (← add s.registers x byte))
  | .operate op _ _ => return .proceed (s.withRegisters (← operate s.registers s.dialect op x y))
  | .setIndex target => return .proceed (s.withRegisters (s.registers.setIndex target)) [.entryPoint target]
  | .jumpIndirect target => do
    let base ← register s.registers 0
    return .ofRegisters s [.entryPoint (target + base.toUInt16)] (← jumpIndirect s.registers base target)
  | .random _ mask => do
    let drawn := s.random.next
    return .proceed { s with registers := ← withRegister s.registers x (drawn.1 &&& mask), random := drawn.2 }
  | .draw _ _ n => do
    match ← draw s.dialect s.memory s.surface s.registers x y n with
    | (regs, .ok surface) => return .proceed { s with registers := regs, surface := surface }
    | (regs, .error f) => return .stop (s.withRegisters regs) (.fault f)
  | .skipIfKey _ => return .ofGate s (← skipKey s.registers latched (← register s.registers x) true)
  | .skipUnlessKey _ => return .ofGate s (← skipKey s.registers latched (← register s.registers x) false)
  | .waitKey _ => return .ofGate s (.ok (← waitKey s.registers latched x))
  | .stop _ => return .stop s (.exit (← register s.registers x))
  | .readDelay _ => return .proceed (s.withRegisters (← withRegister s.registers x s.timers.delay.left))
  | .setDelay _ => return .proceed { s with timers := s.timers.setDelay (← register s.registers x) }
  | .setSound _ => do
    let changed ← setSound s.timers (← register s.registers x)
    return .proceed { s with timers := changed.1 } [.speaker changed.2]
  | .setPitch _ => do
    let vx ← register s.registers x
    return .proceed s ((Tone.note? vx).toList.map fun hertz => .speaker (.pitch hertz))
  | .addIndex _ => do
    let vx ← register s.registers x
    return .proceed (s.withRegisters (s.registers.setIndex (s.registers.index + vx.toUInt16)))
  | .glyph _ => return .proceed (s.withRegisters (s.registers.setIndex (← glyphAddress (← register s.registers x))))
  | .decimal _ => do
    match ← storeDecimal s.dialect s.memory s.registers (← register s.registers x) with
    | .ok (m, regs) => return .proceed { s with memory := m, registers := regs }
    | .error f => return .stop s (.fault f)
  | .store _ => do
    match ← store s.dialect s.memory s.registers 0 x with
    | (m, .ok regs) => return .proceed { s with memory := m, registers := regs }
    | (m, .error f) => return .stop { s with memory := m } (.fault f)
  | .restore _ => do
    match ← restore s.dialect s.memory s.registers 0 x with
    | (regs, none) => return .proceed (s.withRegisters regs)
    | (regs, some f) => return .stop (s.withRegisters regs) (.fault f)
  | .extension e => return .proceed s [.ignored address e]

/-- No instruction traps, if `x` and `y` are the registers it names. -/
theorem execute_eq (h : r.pixelCount + 7 < addressLimit) (s : Session (Framebuffer r)) (address : UInt16)
    (latched : Option Keypress) {x y : Register} {i : Instruction} (hx : ∀ z, i.x? = some z → z = x)
    (hy : ∀ z, i.y? = some z → z = y) :
    execute s address latched x.val y.val i = .ok (s.execute address latched i) := by
  cases i with
  | nop | clear | restart | jump | setIndex | extension => rfl
  | ret =>
    rw [execute, ret_eq]
    rfl
  | call target =>
    rw [execute, call_eq]
    rfl
  | skipIfByte z byte | skipUnlessByte z byte =>
    obtain rfl := hx z rfl
    rw [execute, register_val, ok_bind, skipIf_eq]
    rfl
  | skipIfSame z w | skipUnlessSame z w =>
    obtain rfl := hx z rfl
    obtain rfl := hy w rfl
    rw [execute, register_val, ok_bind, register_val, ok_bind, skipIf_eq]
    rfl
  | setByte z byte | readDelay z =>
    obtain rfl := hx z rfl
    rw [execute, withRegister_val]
    rfl
  | addByte z byte =>
    obtain rfl := hx z rfl
    rw [execute, add_val]
    rfl
  | operate op z w =>
    obtain rfl := hx z rfl
    obtain rfl := hy w rfl
    rw [execute, operate_val]
    rfl
  | jumpIndirect target =>
    rw [execute, register_zero, ok_bind, jumpIndirect_eq]
    rfl
  | random z mask =>
    obtain rfl := hx z rfl
    rw [execute, withRegister_val]
    rfl
  | draw z w n =>
    obtain rfl := hx z rfl
    obtain rfl := hy w rfl
    rw [execute, draw_eq h, ok_bind, Session.execute]
    rcases Sprite.draw s.dialect s.memory s.surface s.registers z w n with ⟨regs, _ | _⟩ <;> rfl
  | skipIfKey z | skipUnlessKey z =>
    obtain rfl := hx z rfl
    rw [execute, register_val, ok_bind, skipKey_eq]
    rfl
  | waitKey z =>
    obtain rfl := hx z rfl
    rw [execute, waitKey_eq]
    rfl
  | stop z | setDelay z | setPitch z | addIndex z =>
    obtain rfl := hx z rfl
    rw [execute, register_val]
    rfl
  | setSound z =>
    obtain rfl := hx z rfl
    rw [execute, register_val, ok_bind, setSound_eq]
    rfl
  | glyph z =>
    obtain rfl := hx z rfl
    rw [execute, register_val, ok_bind, glyphAddress_eq]
    rfl
  | decimal z =>
    obtain rfl := hx z rfl
    rw [execute, register_val, ok_bind, storeDecimal_eq, ok_bind, Session.execute]
    rcases Transfer.storeDecimal s.dialect s.memory s.registers (s.registers.get z) with _ | ⟨m, regs⟩ <;> rfl
  | store z =>
    obtain rfl := hx z rfl
    have hstore : store s.dialect s.memory s.registers 0 z.val = .ok (Transfer.store s.dialect s.memory s.registers 0 z) :=
      store_eq _ _ _ (Fin.zero_le z)
    rw [execute, hstore, ok_bind, Session.execute]
    rcases Transfer.store s.dialect s.memory s.registers 0 z with ⟨m, _ | _⟩ <;> rfl
  | restore z =>
    obtain rfl := hx z rfl
    have hrestore :
        restore s.dialect s.memory s.registers 0 z.val = .ok (Transfer.restore s.dialect s.memory s.registers 0 z) :=
      restore_eq _ _ _ (Fin.zero_le z)
    rw [execute, hrestore, ok_bind, Session.execute]
    rcases Transfer.restore s.dialect s.memory s.registers 0 z with ⟨regs, _ | _⟩ <;> rfl

/-! ## Steps -/

/-- Fetches the word at the program counter. -/
def fetch (s : Session (Framebuffer r)) : Guarded (Except HaltReason Opcode) := do
  if (← programEnd s.memory) ≤ s.registers.pc.toNat then return .error .endOfProgram
  else return (← word s.memory s.registers.pc.toNat).mapError .fault

/-- One instruction of a running session. -/
def step (s : Session (Framebuffer r)) (latched : Option Keypress) : Guarded (Session (Framebuffer r) × List Effect) := do
  match s.status with
  | .halted _ => return (s, [])
  | .running =>
    match ← fetch s with
    | .error reason => return (s.halt reason, [])
    | .ok op =>
      match Instruction.decode op with
      | none => return (s.advance.halt (.fault (.undefinedOpcode op.word s.registers.pc)), [])
      | some i =>
        let done ← execute s.advance s.registers.pc latched (operandX op) (operandY op) i
        return (done.closed, done.effects ++ [.executed ⟨s.registers.pc, op, i, done.session.registers⟩])

/-- A fetch does not trap in range: the end of the program is an address. -/
theorem fetch_eq {s : Session (Framebuffer r)} (hs : s.InRange) : fetch s = .ok s.fetch := by
  have hend := hs.programEnd_le
  have hlimit : addressLimit = 0x10000000000000000 := rfl
  unfold Memory.programEnd at hend
  rw [fetch, programEnd, sum_eq (by omega), ok_bind, Session.fetch]
  show (if s.memory.programEnd ≤ _ then _ else _) = _
  split
  · rfl
  · rw [word_eq]
    rfl

/-- A step does not trap in range. -/
theorem step_eq (h : r.pixelCount + 7 < addressLimit) {s : Session (Framebuffer r)} (hs : s.InRange)
    (latched : Option Keypress) : step s latched = .ok (s.step latched) := by
  rcases s.step_cases latched with ⟨_, hh, e⟩ | ⟨_, hr, hf, e⟩ | ⟨op, hr, hf, hd, e⟩ | ⟨op, i, hr, hf, hd, e⟩
  · simp only [step, hh, e, pure_eq]
  · simp only [step, hr, fetch_eq hs, hf, e, ok_bind, pure_eq]
  · simp only [step, hr, fetch_eq hs, hf, hd, e, ok_bind, pure_eq]
  · obtain ⟨hx, hy⟩ := Instruction.registers_of_decode hd
    simp only [step, hr, fetch_eq hs, hf, hd, e, operandX_eq, operandY_eq, execute_eq h s.advance s.registers.pc latched hx hy,
      ok_bind, pure_eq]

/-! ## Histories -/

/-- Loads a program at an address and goes to its start. -/
def loadProgram (s : Session (Framebuffer r)) (program : List UInt8) (address : UInt16) : Guarded (Session (Framebuffer r)) := do
  match ← load s.memory program address with
  | .error _ => return s
  | .ok m => return { s with memory := m, registers := s.registers.setPc address, status := .running }

/-- One tick of the timers. -/
def tick (s : Session (Framebuffer r)) : Guarded (Session (Framebuffer r) × List Effect) := do
  let ticked ← tickTimers s.timers
  return ({ s with timers := ticked.1 }, ticked.2.map .speaker)

/-- Does one thing to a session. A poll and a present have nothing to test. -/
def act (s : Session (Framebuffer r)) : Action (Option Keypress) → Guarded (Session (Framebuffer r) × List Effect)
  | .load program address => return (← loadProgram s program address, [])
  | .step latched => step s latched
  | .tick => tick s
  | .poll latched => return s.poll latched
  | .present => return (s.present.2, [])

/-- Does one thing after the other. -/
def actAll (s : Session (Framebuffer r)) : List (Action (Option Keypress)) → Guarded (Session (Framebuffer r) × List Effect)
  | [] => return (s, [])
  | a :: rest => do
    let first ← act s a
    let others ← actAll first.1 rest
    return (others.1, first.2 ++ others.2)

/-- To load a program does not trap. -/
theorem loadProgram_eq (s : Session (Framebuffer r)) (program : List UInt8) (address : UInt16) :
    loadProgram s program address = .ok (s.load program address).2 := by
  rw [loadProgram, load_eq, ok_bind, Session.load]
  cases s.memory.load program address <;> rfl

/-- A tick does not trap. -/
theorem tick_eq (s : Session (Framebuffer r)) : tick s = .ok s.tick := by
  rw [tick, tickTimers_eq]
  rfl

/-- Nothing that is done to a session in range traps. -/
theorem act_eq (h : r.pixelCount + 7 < addressLimit) {s : Session (Framebuffer r)} (hs : s.InRange)
    (a : Action (Option Keypress)) : act s a = .ok (s.act a) := by
  cases a with
  | load program address =>
    rw [act, loadProgram_eq]
    rfl
  | step latched => exact step_eq h hs latched
  | tick => exact tick_eq s
  | poll latched => rfl
  | present => rfl

/-- No history of a session in range traps. -/
theorem actAll_eq (h : r.pixelCount + 7 < addressLimit) {s : Session (Framebuffer r)} (hs : s.InRange)
    (actions : List (Action (Option Keypress))) : actAll s actions = .ok (s.actAll actions) := by
  induction actions generalizing s with
  | nil => rfl
  | cons a rest ih =>
    rw [actAll, act_eq h hs, ok_bind, ih (hs.act a)]
    rfl

end ChipEight.Guarded
