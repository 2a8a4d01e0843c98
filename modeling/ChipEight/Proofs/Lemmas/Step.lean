import ChipEight.Session.Step
import ChipEight.Proofs.Lemmas.Flow
import ChipEight.Proofs.Lemmas.Registers

/-!
# What a step comes to

A step of a halted session does nothing. A step of a running one ends the session in the fetch, finds a word that is no
instruction, or executes an instruction. `Session.step_cases` says so once; statements about a step start from it and speak of
`Session.execute` from there on.
-/

namespace ChipEight

variable {σ : Type}

/-- The session after an execution, halted if there is a reason. -/
def Execution.closed (e : Execution σ) : Session σ :=
  match e.halt with
  | none => e.session
  | some reason => e.session.halt reason

namespace Execution

/-- Closing an execution changes nothing but the status. -/
theorem closed_eq (e : Execution σ) : ∃ status, e.closed = { e.session with status := status } := by
  unfold closed
  split
  · exact ⟨e.session.status, rfl⟩
  · exact ⟨.halted _, rfl⟩

@[simp] theorem effects_ofRegisters (s : Session σ) (effects : List Effect) (e : Except Fault Registers) :
    (ofRegisters s effects e).effects = effects := by
  cases e <;> rfl

@[simp] theorem effects_ofFlow (s : Session σ) (effects : List Effect) (e : Except Fault (Registers × CallStack)) :
    (ofFlow s effects e).effects = effects := by
  cases e <;> rfl

@[simp] theorem effects_ofGate (s : Session σ) (e : Except Fault Gate) : (ofGate s e).effects = [.keyLook] := by
  rcases e with _ | ⟨_⟩ | _ <;> rfl

end Execution

namespace Session

@[simp] theorem memory_halt (s : Session σ) (reason : HaltReason) : (s.halt reason).memory = s.memory := rfl

@[simp] theorem registers_halt (s : Session σ) (reason : HaltReason) : (s.halt reason).registers = s.registers := rfl

@[simp] theorem stack_halt (s : Session σ) (reason : HaltReason) : (s.halt reason).stack = s.stack := rfl

@[simp] theorem status_halt (s : Session σ) (reason : HaltReason) : (s.halt reason).status = .halted reason := rfl

@[simp] theorem memory_advance (s : Session σ) : s.advance.memory = s.memory := rfl

@[simp] theorem stack_advance (s : Session σ) : s.advance.stack = s.stack := rfl

@[simp] theorem status_advance (s : Session σ) : s.advance.status = s.status := rfl

@[simp] theorem registers_advance (s : Session σ) :
    s.advance.registers = s.registers.setPc (s.registers.pc + Flow.instructionBytes) := rfl

/-- A fetch asks for the end of the program first, and then for a word in memory. -/
theorem fetch_eq (s : Session σ) :
    s.fetch =
      if s.memory.programEnd ≤ s.registers.pc.toNat then .error .endOfProgram
      else if s.registers.pc.toNat + 2 ≤ Memory.size then
        .ok (.ofBytes (s.memory.peek s.registers.pc.toNat) (s.memory.peek (s.registers.pc.toNat + 1)))
      else .error (.fault (.outOfRange (max s.registers.pc.toNat Memory.size))) := by
  unfold fetch
  dsimp only
  rw [Memory.word_eq]
  split
  · rfl
  · split <;> rfl

/-- A fetch gives the word at the program counter, if the counter is inside the program and the word inside memory. -/
theorem fetch_eq_ok_iff {s : Session σ} {op : Opcode} :
    s.fetch = .ok op ↔
      s.registers.pc.toNat < s.memory.programEnd ∧ s.registers.pc.toNat + 2 ≤ Memory.size ∧
        op = .ofBytes (s.memory.peek s.registers.pc.toNat) (s.memory.peek (s.registers.pc.toNat + 1)) := by
  rw [fetch_eq]
  split
  · rename_i hend
    constructor
    · intro h
      cases h
    · intro h
      exact absurd h.1 (Nat.not_lt.mpr hend)
  · rename_i hend
    split
    · rename_i hs
      rw [Except.ok.injEq]
      exact ⟨fun h => ⟨Nat.not_le.mp hend, hs, h.symm⟩, fun h => h.2.2.symm⟩
    · rename_i hs
      constructor
      · intro h
        cases h
      · intro h
        exact absurd h.2.1 hs

/-- A fetch fails at the end of the program, or else where the word would leave memory. -/
theorem fetch_eq_error_iff {s : Session σ} {reason : HaltReason} :
    s.fetch = .error reason ↔
      s.memory.programEnd ≤ s.registers.pc.toNat ∧ reason = .endOfProgram ∨
        s.registers.pc.toNat < s.memory.programEnd ∧ Memory.size < s.registers.pc.toNat + 2 ∧
          reason = .fault (.outOfRange (max s.registers.pc.toNat Memory.size)) := by
  rw [fetch_eq]
  split
  · rename_i h
    simp only [Except.error.injEq, h, true_and, Nat.not_lt.mpr h, false_and, or_false]
    exact eq_comm
  · rename_i h
    simp only [h, false_and, false_or, Nat.not_le.mp h, true_and]
    split
    · rename_i hs
      constructor
      · intro h'
        cases h'
      · intro h'
        exact absurd h'.1 (Nat.not_lt.mpr hs)
    · rename_i hs
      simp only [Except.error.injEq, Nat.not_le.mp hs, true_and]
      exact eq_comm

variable [Surface σ]

/-- A step of a halted session does nothing. -/
theorem step_of_halted {s : Session σ} {reason : HaltReason} (h : s.status = .halted reason)
    (latched : Option Keypress) : s.step latched = (s, []) := by
  simp only [step, h]

/-- A step whose fetch fails halts where it is. -/
theorem step_of_fetch_error {s : Session σ} (h : s.status = .running) {reason : HaltReason}
    (hf : s.fetch = .error reason) (latched : Option Keypress) : s.step latched = (s.halt reason, []) := by
  simp only [step, h, hf]

/-- A step on a word that is no instruction halts behind it. -/
theorem step_of_decode_none {s : Session σ} (h : s.status = .running) {op : Opcode} (hf : s.fetch = .ok op)
    (hd : Instruction.decode op = none) (latched : Option Keypress) :
    s.step latched = (s.advance.halt (.fault (.undefinedOpcode op.word s.registers.pc)), []) := by
  simp only [step, h, hf, hd]

/-- A step on an instruction executes it behind the fetch. -/
theorem step_of_decode {s : Session σ} (h : s.status = .running) {op : Opcode} (hf : s.fetch = .ok op)
    {i : Instruction} (hd : Instruction.decode op = some i) (latched : Option Keypress) :
    s.step latched =
      ((s.advance.execute s.registers.pc latched i).closed,
        (s.advance.execute s.registers.pc latched i).effects ++
          [.executed ⟨s.registers.pc, op, i, (s.advance.execute s.registers.pc latched i).session.registers⟩]) := by
  simp only [step, h, hf, hd]
  unfold Execution.closed
  cases (s.advance.execute s.registers.pc latched i).halt <;> rfl

/-- The four ways a step can go. -/
theorem step_cases (s : Session σ) (latched : Option Keypress) :
    (∃ reason, s.status = .halted reason ∧ s.step latched = (s, [])) ∨
    (∃ reason, s.status = .running ∧ s.fetch = .error reason ∧ s.step latched = (s.halt reason, [])) ∨
    (∃ op, s.status = .running ∧ s.fetch = .ok op ∧ Instruction.decode op = none ∧
      s.step latched = (s.advance.halt (.fault (.undefinedOpcode op.word s.registers.pc)), [])) ∨
    (∃ op i, s.status = .running ∧ s.fetch = .ok op ∧ Instruction.decode op = some i ∧
      s.step latched =
        ((s.advance.execute s.registers.pc latched i).closed,
          (s.advance.execute s.registers.pc latched i).effects ++
            [.executed ⟨s.registers.pc, op, i, (s.advance.execute s.registers.pc latched i).session.registers⟩])) := by
  cases h : s.status with
  | halted reason => exact Or.inl ⟨reason, rfl, step_of_halted h latched⟩
  | running =>
    cases hf : s.fetch with
    | error reason => exact Or.inr (Or.inl ⟨reason, rfl, rfl, step_of_fetch_error h hf latched⟩)
    | ok op =>
      cases hd : Instruction.decode op with
      | none => exact Or.inr (Or.inr (Or.inl ⟨op, rfl, rfl, hd, step_of_decode_none h hf hd latched⟩))
      | some i => exact Or.inr (Or.inr (Or.inr ⟨op, i, rfl, rfl, hd, step_of_decode h hf hd latched⟩))

end Session

end ChipEight
