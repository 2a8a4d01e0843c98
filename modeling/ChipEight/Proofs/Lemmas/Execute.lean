import ChipEight.Proofs.Lemmas.Step
import ChipEight.Proofs.Lemmas.Transfer

/-!
# What executing an instruction does to the parts of a session

Every instruction may change the registers. Beside them it changes only the parts it owns (`Instruction.owns`), which is said once
in `Session.leaves_execute`. What it tells the outside does not depend on whether it succeeds (`Instruction.tells`). Neither the place
of the loaded program nor any live frame but the newest ever changes, and the program counter lands in one of five places
(`Session.Lands`).
-/

namespace ChipEight

variable {σ : Type}

/-- A part of a session that only some instructions change. -/
inductive Part where
  | memory
  | stack
  | delay
  | sound
  | random
  | surface
  deriving DecidableEq

namespace Execution

/-! ## Closing an execution changes the status only -/

theorem memory_closed (e : Execution σ) : e.closed.memory = e.session.memory := by
  unfold closed
  split <;> rfl

theorem registers_closed (e : Execution σ) : e.closed.registers = e.session.registers := by
  unfold closed
  split <;> rfl

theorem stack_closed (e : Execution σ) : e.closed.stack = e.session.stack := by
  unfold closed
  split <;> rfl

/-- An execution that gives no reason to halt is closed as it is. -/
theorem closed_of_halt_eq_none {e : Execution σ} (h : e.halt = none) : e.closed = e.session := by
  simp only [closed, h]

end Execution

/-- Whether an instruction may change a part. -/
def Instruction.owns : Instruction → Part → Bool
  | .decimal _, .memory | .store _, .memory => true
  | .ret, .stack | .call _, .stack => true
  | .setDelay _, .delay => true
  | .setSound _, .sound => true
  | .random _ _, .random => true
  | .clear, .surface | .draw _ _ _, .surface => true
  | _, _ => false

/-- What an instruction tells the outside, whether or not it ends the session. -/
def Instruction.tells (r : Registers) (t : Timers) (address : UInt16) : Instruction → List Effect
  | .jump target | .call target | .setIndex target => [.entryPoint target]
  | .jumpIndirect target => [.entryPoint (target + (r.get firstRegister).toUInt16)]
  | .skipIfKey _ | .skipUnlessKey _ | .waitKey _ => [.keyLook]
  | .setSound x => [.speaker (t.setSound (r.get x)).2]
  | .setPitch x => (Tone.note? (r.get x)).toList.map fun hertz => .speaker (.pitch hertz)
  | .extension e => [.ignored address e]
  | _ => []

/-- What a session has kept when an instruction was executed in it: every part that the instruction does not own. -/
structure Session.Leaves (i : Instruction) (s t : Session σ) : Prop where
  memory : i.owns .memory = false → t.memory = s.memory
  stack : i.owns .stack = false → t.stack = s.stack
  delay : i.owns .delay = false → t.timers.delay = s.timers.delay
  sound : i.owns .sound = false → t.timers.sound = s.timers.sound
  random : i.owns .random = false → t.random = s.random
  surface : i.owns .surface = false → t.surface = s.surface
  dialect : t.dialect = s.dialect
  status : t.status = s.status

namespace Session

/-- A session with other registers has kept all parts. -/
theorem Leaves.withRegisters (i : Instruction) (s : Session σ) (r : Registers) : s.Leaves i (s.withRegisters r) :=
  ⟨fun _ => rfl, fun _ => rfl, fun _ => rfl, fun _ => rfl, fun _ => rfl, fun _ => rfl, rfl, rfl⟩

theorem Leaves.ofRegisters (i : Instruction) (s : Session σ) (effects : List Effect) (e : Except Fault Registers) :
    s.Leaves i (Execution.ofRegisters s effects e).session := by
  cases e with
  | error f => exact Leaves.withRegisters i s s.registers
  | ok r => exact Leaves.withRegisters i s r

theorem Leaves.ofGate (i : Instruction) (s : Session σ) (e : Except Fault Gate) :
    s.Leaves i (Execution.ofGate s e).session := by
  rcases e with f | ⟨r⟩ | _
  · exact Leaves.withRegisters i s s.registers
  · exact Leaves.withRegisters i s r
  · exact Leaves.withRegisters i s s.registers

theorem Leaves.ofFlow {i : Instruction} (hi : i.owns .stack = true) (s : Session σ) (effects : List Effect)
    (e : Except Fault (Registers × CallStack)) : s.Leaves i (Execution.ofFlow s effects e).session := by
  cases e with
  | error f => exact Leaves.withRegisters i s s.registers
  | ok p =>
    exact ⟨fun _ => rfl, fun h => absurd (hi.symm.trans h) (by decide), fun _ => rfl, fun _ => rfl, fun _ => rfl,
      fun _ => rfl, rfl, rfl⟩

/-- A session with other registers and another memory has kept all parts but the memory. -/
theorem Leaves.withMemory {i : Instruction} (hi : i.owns .memory = true) (s : Session σ) (m : Memory) (r : Registers) :
    s.Leaves i { s with memory := m, registers := r } :=
  ⟨fun h => absurd (hi.symm.trans h) (by decide), fun _ => rfl, fun _ => rfl, fun _ => rfl, fun _ => rfl, fun _ => rfl,
    rfl, rfl⟩

/-- A session with other registers and another surface has kept all parts but the surface. -/
theorem Leaves.withSurface {i : Instruction} (hi : i.owns .surface = true) (s : Session σ) (surface : σ) (r : Registers) :
    s.Leaves i { s with surface := surface, registers := r } :=
  ⟨fun _ => rfl, fun _ => rfl, fun _ => rfl, fun _ => rfl, fun _ => rfl, fun h => absurd (hi.symm.trans h) (by decide),
    rfl, rfl⟩

variable [Surface σ]

/-- Executing an instruction changes the registers and what the instruction owns, and nothing else. -/
theorem leaves_execute (s : Session σ) (address : UInt16) (latched : Option Keypress) (i : Instruction) :
    s.Leaves i (s.execute address latched i).session := by
  cases i with
  | nop => exact Leaves.withRegisters _ s s.registers
  | clear => exact Leaves.withSurface rfl s _ s.registers
  | ret => exact Leaves.ofFlow rfl s _ _
  | call target => exact Leaves.ofFlow rfl s _ _
  | jump target => exact Leaves.ofRegisters _ s _ _
  | jumpIndirect target => exact Leaves.ofRegisters _ s _ _
  | skipIfByte x byte => exact Leaves.ofRegisters _ s _ _
  | skipUnlessByte x byte => exact Leaves.ofRegisters _ s _ _
  | skipIfSame x y => exact Leaves.ofRegisters _ s _ _
  | skipUnlessSame x y => exact Leaves.ofRegisters _ s _ _
  | skipIfKey x => exact Leaves.ofGate _ s _
  | skipUnlessKey x => exact Leaves.ofGate _ s _
  | waitKey x => exact Leaves.ofGate _ s _
  | random x mask => exact ⟨fun _ => rfl, fun _ => rfl, fun _ => rfl, fun _ => rfl, nofun, fun _ => rfl, rfl, rfl⟩
  | setDelay x => exact ⟨fun _ => rfl, fun _ => rfl, nofun, fun _ => rfl, fun _ => rfl, fun _ => rfl, rfl, rfl⟩
  | setSound x => exact ⟨fun _ => rfl, fun _ => rfl, fun _ => rfl, nofun, fun _ => rfl, fun _ => rfl, rfl, rfl⟩
  | draw x y n =>
    simp only [execute]
    split
    · exact Leaves.withSurface rfl s _ _
    · exact Leaves.withRegisters _ s _
  | decimal x =>
    simp only [execute]
    split
    · exact Leaves.withMemory rfl s _ _
    · exact Leaves.withRegisters _ s s.registers
  | store x =>
    simp only [execute]
    split
    · exact Leaves.withMemory rfl s _ _
    · exact Leaves.withMemory rfl s _ s.registers
  | restore x =>
    simp only [execute]
    split <;> exact Leaves.withRegisters _ s _
  | stop x => exact Leaves.withRegisters _ s s.registers
  | setPitch x => exact Leaves.withRegisters _ s s.registers
  | extension e => exact Leaves.withRegisters _ s s.registers
  | _ => exact Leaves.withRegisters _ s _

/-- What a step of a running session comes to when it executes an instruction without a reason to halt. -/
theorem step_eq_of_halt_eq_none {s : Session σ} {op : Opcode} {i : Instruction} {latched : Option Keypress}
    (hr : s.status = .running) (hf : s.fetch = .ok op) (hd : Instruction.decode op = some i)
    (hh : (s.advance.execute s.registers.pc latched i).halt = none) :
    (s.step latched).1 = (s.advance.execute s.registers.pc latched i).session ∧ (s.step latched).1.status = .running := by
  have e : (s.step latched).1 = (s.advance.execute s.registers.pc latched i).session := by
    rw [step_of_decode hr hf hd]
    exact Execution.closed_of_halt_eq_none hh
  refine ⟨e, ?_⟩
  rw [e]
  exact (leaves_execute s.advance s.registers.pc latched i).status.trans hr

/-! ## What is told -/

/-- Executing an instruction tells what the instruction tells. -/
theorem effects_execute (s : Session σ) (address : UInt16) (latched : Option Keypress) (i : Instruction) :
    (s.execute address latched i).effects = i.tells s.registers s.timers address := by
  cases i with
  | ret => exact Execution.effects_ofFlow s _ _
  | call target => exact Execution.effects_ofFlow s _ _
  | jump target => exact Execution.effects_ofRegisters s _ _
  | jumpIndirect target => exact Execution.effects_ofRegisters s _ _
  | skipIfByte x byte => exact Execution.effects_ofRegisters s _ _
  | skipUnlessByte x byte => exact Execution.effects_ofRegisters s _ _
  | skipIfSame x y => exact Execution.effects_ofRegisters s _ _
  | skipUnlessSame x y => exact Execution.effects_ofRegisters s _ _
  | skipIfKey x => exact Execution.effects_ofGate s _
  | skipUnlessKey x => exact Execution.effects_ofGate s _
  | waitKey x => exact Execution.effects_ofGate s _
  | draw x y n =>
    simp only [execute]
    split <;> rfl
  | decimal x =>
    simp only [execute]
    split <;> rfl
  | store x =>
    simp only [execute]
    split <;> rfl
  | restore x =>
    simp only [execute]
    split <;> rfl
  | _ => rfl

/-! ## The place of the program -/

omit [Surface σ] in
/-- Storing registers does not move the program. -/
theorem program_storeAll (r : Registers) (m : Memory) (address : Nat) (xs : List Register) :
    (Transfer.storeAll r m address xs).1.programAddress = m.programAddress ∧
      (Transfer.storeAll r m address xs).1.programLength = m.programLength := by
  induction xs generalizing m address with
  | nil => exact ⟨rfl, rfl⟩
  | cons x rest ih =>
    unfold Transfer.storeAll
    rw [Memory.setByte_eq]
    by_cases h : address + 1 ≤ Memory.size
    · rw [if_pos h]
      simpa using ih (m.poke address (r.get x)) (address + 1)
    · rw [if_neg h]
      exact ⟨rfl, rfl⟩

/-- Executing an instruction does not move the program: its address and its length stay. -/
theorem program_execute (s : Session σ) (address : UInt16) (latched : Option Keypress) (i : Instruction) :
    (s.execute address latched i).session.memory.programAddress = s.memory.programAddress ∧
      (s.execute address latched i).session.memory.programLength = s.memory.programLength := by
  cases i with
  | decimal x =>
    simp only [execute, Transfer.storeDecimal, Memory.write_eq]
    split
    · rename_i m r h
      split at h
      · cases h
        exact ⟨Memory.programAddress_pokeAll _ _ _, Memory.programLength_pokeAll _ _ _⟩
      · cases h
    · exact ⟨rfl, rfl⟩
  | store x =>
    have h := program_storeAll s.registers s.memory s.registers.index.toNat (Transfer.registersFrom 0 x)
    simp only [execute, Transfer.store]
    cases hs : Transfer.storeAll s.registers s.memory s.registers.index.toNat (Transfer.registersFrom 0 x) with
    | mk m f =>
      rw [hs] at h
      cases f with
      | none => exact h
      | some f => exact h
  | _ =>
    rw [(leaves_execute s address latched _).memory rfl]
    exact ⟨rfl, rfl⟩

/-! ## The live frames -/

/-- What an execution does to the call stack: it leaves it alone, or it is a call that opened a frame behind itself, or a return
that closed the newest one and went there. A call or a return that leaves it alone has come to a fault. -/
inductive FrameChange (s : Session σ) : Instruction → Execution σ → Prop where
  | kept {i : Instruction} {e : Execution σ} (h : e.session.stack = s.stack) (hh : i.owns .stack = true → e.halt ≠ none) :
    FrameChange s i e
  | opened {target : UInt16} {e : Execution σ} (h : e.session.stack.frames = s.stack.frames ++ [s.registers.pc])
    (hh : e.halt = none) : FrameChange s (.call target) e
  | closed {e : Execution σ} (h : s.stack.frames = e.session.stack.frames ++ [e.session.registers.pc]) (hh : e.halt = none) :
    FrameChange s .ret e

/-- Executing an instruction changes the call stack in one of the three ways. -/
theorem frameChange_execute (s : Session σ) (address : UInt16) (latched : Option Keypress) (i : Instruction) :
    s.FrameChange i (s.execute address latched i) := by
  cases i with
  | ret =>
    simp only [execute]
    cases he : Flow.ret s.registers s.stack with
    | error f => exact .kept rfl fun _ => Option.some_ne_none _
    | ok p =>
      obtain ⟨top, hr, hs⟩ := Flow.of_ret_eq_ok he
      have hpc : p.1.pc = top := congrArg Registers.pc hr
      exact .closed (hs.trans (by rw [← hpc]; rfl)) rfl
  | call target =>
    simp only [execute]
    cases he : Flow.call s.registers s.stack target with
    | error f => exact .kept rfl fun _ => Option.some_ne_none _
    | ok p => exact .opened (Flow.of_call_eq_ok he).2.1 rfl
  | _ => exact .kept ((leaves_execute s address latched _).stack rfl) nofun

/-- A frame that is live after an instruction was live before it, or is the address behind a call. -/
theorem frames_execute (s : Session σ) (address : UInt16) (latched : Option Keypress) (i : Instruction) :
    ∀ frame ∈ (s.execute address latched i).session.stack.frames, frame ∈ s.stack.frames ∨ frame = s.registers.pc := by
  intro frame hf
  cases frameChange_execute s address latched i with
  | kept h => exact Or.inl (h ▸ hf)
  | opened h =>
    rw [h, List.mem_append, List.mem_singleton] at hf
    exact hf
  | closed h =>
    rw [h]
    exact Or.inl (List.mem_append_left _ hf)

/-! ## The program counter -/

/-- Where an instruction leaves the program counter, which pointed behind it. -/
inductive Lands (s : Session σ) : UInt16 → Prop where
  | next : Lands s s.registers.pc
  | jumped {pc : UInt16} (h : 0x200 ≤ pc.toNat ∧ pc.toNat < 0x1000) : Lands s pc
  | restarted : Lands s s.memory.programAddress
  | returned {pc : UInt16} (h : pc ∈ s.stack.frames) : Lands s pc
  | waiting : Lands s (s.registers.pc - 2)

omit [Surface σ] in
theorem Lands.ofJump {s : Session σ} {r : Registers} {address : Nat} (h : Flow.jump s.registers address = .ok r) :
    s.Lands r.pc := by
  obtain ⟨-, hpc, he⟩ := Flow.of_jump_eq_ok h
  exact .jumped (by rw [hpc]; exact he)

omit [Surface σ] in
theorem Lands.ofSkip {s : Session σ} {r : Registers} {condition : Bool} (h : Flow.skipIf s.registers condition = .ok r) :
    s.Lands r.pc := by
  rcases Flow.of_skipIf_eq_ok h with rfl | ⟨address, hj⟩
  · exact .next
  · exact Lands.ofJump hj

omit [Surface σ] in
theorem Lands.ofRegisters {s : Session σ} {effects : List Effect} {e : Except Fault Registers}
    (h : ∀ r, e = .ok r → s.Lands r.pc) : s.Lands (Execution.ofRegisters s effects e).session.registers.pc := by
  cases e with
  | error f => exact .next
  | ok r => exact h r rfl

omit [Surface σ] in
theorem Lands.ofFlow {s : Session σ} {effects : List Effect} {e : Except Fault (Registers × CallStack)}
    (h : ∀ r k, e = .ok (r, k) → s.Lands r.pc) : s.Lands (Execution.ofFlow s effects e).session.registers.pc := by
  cases e with
  | error f => exact .next
  | ok p => exact h p.1 p.2 rfl

omit [Surface σ] in
theorem Lands.ofGateSkip (s : Session σ) (latched : Option Keypress) (expected : UInt8) (pressed : Bool) :
    s.Lands (Execution.ofGate s (Gate.skip s.registers latched expected pressed)).session.registers.pc := by
  unfold Gate.skip
  split
  · exact .next
  · cases h : Flow.skipIf s.registers (decide (latched = some (.key expected)) == pressed) with
    | error f => exact .next
    | ok r => exact Lands.ofSkip h

/-- Executing an instruction lands the program counter in one of the five places. -/
theorem lands_execute (s : Session σ) (address : UInt16) (latched : Option Keypress) (i : Instruction) :
    s.Lands (s.execute address latched i).session.registers.pc := by
  cases i with
  | ret =>
    refine Lands.ofFlow fun r k h => ?_
    obtain ⟨frame, rfl, hs⟩ := Flow.of_ret_eq_ok h
    exact .returned (by rw [hs]; simp)
  | restart => exact .restarted
  | jump target => exact Lands.ofRegisters fun r h => Lands.ofJump h
  | call target =>
    refine Lands.ofFlow fun r k h => ?_
    obtain ⟨rfl, -, he⟩ := Flow.of_call_eq_ok h
    exact .jumped he
  | skipIfByte x byte => exact Lands.ofRegisters fun r h => Lands.ofSkip h
  | skipUnlessByte x byte => exact Lands.ofRegisters fun r h => Lands.ofSkip h
  | skipIfSame x y => exact Lands.ofRegisters fun r h => Lands.ofSkip h
  | skipUnlessSame x y => exact Lands.ofRegisters fun r h => Lands.ofSkip h
  | jumpIndirect target => exact Lands.ofRegisters fun r h => Lands.ofJump h
  | skipIfKey x => exact Lands.ofGateSkip s latched _ true
  | skipUnlessKey x => exact Lands.ofGateSkip s latched _ false
  | waitKey x =>
    rcases latched with _ | ⟨k⟩ | _
    · exact .waiting
    · exact .next
    · exact .next
  | draw x y n =>
    simp only [execute, Sprite.draw]
    split
    · rename_i r surface h
      split at h
      · cases h
      · cases h
        exact .next
    · rename_i r f h
      split at h
      · cases h
        exact .next
      · cases h
  | decimal x =>
    simp only [execute, Transfer.storeDecimal, Memory.write_eq]
    split
    · rename_i m r h
      split at h
      · cases h
        exact (Transfer.pc_advance s.dialect s.registers 3).symm ▸ .next
      · cases h
    · exact .next
  | store x =>
    simp only [execute, Transfer.store]
    cases hs : Transfer.storeAll s.registers s.memory s.registers.index.toNat (Transfer.registersFrom 0 x) with
    | mk m f =>
      cases f with
      | none => exact (Transfer.pc_advance s.dialect s.registers _).symm ▸ .next
      | some f => exact .next
  | restore x =>
    have h := (Transfer.frame_restoreAll s.memory s.registers s.registers.index.toNat (Transfer.registersFrom 0 x)).1
    simp only [execute, Transfer.restore]
    cases hs : Transfer.restoreAll s.memory s.registers s.registers.index.toNat (Transfer.registersFrom 0 x) with
    | mk r f =>
      rw [hs] at h
      cases f with
      | none => exact ((Transfer.pc_advance s.dialect r _).trans h).symm ▸ .next
      | some f => exact h.symm ▸ .next
  | addByte x byte => exact (Registers.pc_add s.registers x byte).symm ▸ .next
  | operate op x y => exact (Registers.pc_operate s.registers s.dialect op x y).symm ▸ .next
  | _ => exact .next

end Session

end ChipEight
