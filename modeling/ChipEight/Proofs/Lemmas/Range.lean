import ChipEight.Proofs.Lemmas.Execute
import ChipEight.Proofs.Reachable

/-!
# The range of a session

`Session.InRange` bounds the program counter, the live frames and the loaded program together. The counter alone cannot be bounded
by the end of the executable region: behind the last word of a full region it is 0x1000, and behind an odd last byte 0x1001. Every
operation keeps the range (`InRange.act`), so every reachable session has it.
-/

namespace ChipEight.Session

variable {σ : Type}

/-- Where the program counter, the live frames and the loaded program of a session lie. -/
structure InRange (s : Session σ) : Prop where
  pc_ge : 0x200 ≤ s.registers.pc.toNat
  pc_le : s.registers.pc.toNat ≤ 0x1001
  depth_le : s.stack.depth ≤ 16
  frames : ∀ frame ∈ s.stack.frames, 0x202 ≤ frame.toNat ∧ frame.toNat ≤ 0x1001
  program_ge : 0x200 ≤ s.memory.programAddress.toNat
  program_lt : s.memory.programAddress.toNat < 0x1000
  programEnd_le : s.memory.programEnd ≤ 0x1000

/-- A change of anything but the program counter, the stack and the memory keeps the range. -/
theorem InRange.of_eq {s t : Session σ} (h : s.InRange) (hp : t.registers.pc = s.registers.pc) (hk : t.stack = s.stack)
    (hm : t.memory = s.memory) : t.InRange := by
  obtain ⟨h1, h2, h3, h4, h5, h6, h7⟩ := h
  rw [← hp] at h1 h2
  rw [← hk] at h3 h4
  rw [← hm] at h5 h6 h7
  exact ⟨h1, h2, h3, h4, h5, h6, h7⟩

/-- A session at its start is in range. -/
theorem inRange_start (settings : Settings) (entropy : ByteStream) (surface : σ) :
    (Session.start settings entropy surface).1.InRange := by
  have hpc : (Session.start settings entropy surface).1.registers.pc.toNat = 0x200 := rfl
  have hprogram : (Session.start settings entropy surface).1.memory.programAddress.toNat = 0x200 := rfl
  have hend : (Session.start settings entropy surface).1.memory.programEnd = 0x200 := rfl
  have hframes : (Session.start settings entropy surface).1.stack.frames = [] := CallStack.frames_empty
  refine ⟨by omega, by omega, Nat.zero_le 16, ?_, by omega, by omega, by omega⟩
  rw [hframes]
  exact nofun

/-- Inside the program a fetch finds a word. -/
theorem InRange.fetch_eq_ok_iff {s : Session σ} (h : s.InRange) {op : Opcode} :
    s.fetch = .ok op ↔
      s.registers.pc.toNat < s.memory.programEnd ∧
        op = .ofBytes (s.memory.peek s.registers.pc.toNat) (s.memory.peek (s.registers.pc.toNat + 1)) := by
  have hend := h.programEnd_le
  have hsize : Memory.size = 0x10000 := rfl
  rw [Session.fetch_eq_ok_iff]
  constructor
  · rintro ⟨hp, -, ho⟩
    exact ⟨hp, ho⟩
  · rintro ⟨hp, ho⟩
    exact ⟨hp, by omega, ho⟩

/-- The only way a fetch fails is the end of the program. -/
theorem InRange.fetch_eq_error_iff {s : Session σ} (h : s.InRange) {reason : HaltReason} :
    s.fetch = .error reason ↔ s.memory.programEnd ≤ s.registers.pc.toNat ∧ reason = .endOfProgram := by
  have hend := h.programEnd_le
  have hsize : Memory.size = 0x10000 := rfl
  rw [Session.fetch_eq_error_iff]
  constructor
  · rintro (he | ⟨hp, hs, -⟩)
    · exact he
    · omega
  · exact Or.inl

/-- Moving the counter past a word does not wrap. -/
theorem InRange.toNat_pc_advance {s : Session σ} (h : s.InRange) :
    s.advance.registers.pc.toNat = s.registers.pc.toNat + 2 := by
  have hle := h.pc_le
  show (s.registers.pc + 2).toNat = _
  rw [UInt16.toNat_add, show (2 : UInt16).toNat = 2 from rfl]
  omega

/-- Going back over an instruction undoes the move past it. -/
theorem pc_advance_sub (s : Session σ) : s.advance.registers.pc - Flow.instructionBytes = s.registers.pc :=
  UInt16.add_sub_cancel _ _

/-- The range with the counter behind an instruction that was fetched inside the program. -/
theorem InRange.advance {s : Session σ} (h : s.InRange) (hf : s.registers.pc.toNat < s.memory.programEnd) :
    s.advance.InRange ∧ 0x202 ≤ s.advance.registers.pc.toNat := by
  obtain ⟨h1, h2, h3, h4, h5, h6, h7⟩ := h
  have hpc := InRange.toNat_pc_advance ⟨h1, h2, h3, h4, h5, h6, h7⟩
  exact ⟨⟨by omega, by omega, h3, h4, h5, h6, h7⟩, by omega⟩

/-- A counter that lands anywhere from behind an instruction in range is in range. -/
theorem InRange.of_lands {s : Session σ} (h : s.InRange) (hp : 0x202 ≤ s.registers.pc.toNat) {pc : UInt16}
    (hl : s.Lands pc) : 0x200 ≤ pc.toNat ∧ pc.toNat ≤ 0x1001 := by
  have hle := h.pc_le
  cases hl with
  | next => omega
  | jumped he => omega
  | restarted =>
    have := h.program_ge
    have := h.program_lt
    omega
  | returned hf =>
    have := h.frames pc hf
    omega
  | waiting =>
    have htwo : (2 : UInt16).toNat = 2 := rfl
    have : (s.registers.pc - 2).toNat = s.registers.pc.toNat - 2 :=
      UInt16.toNat_sub_of_le _ _ (UInt16.le_iff_toNat_le.mpr (by omega))
    omega

variable [Surface σ]

/-- Executing an instruction keeps the range. -/
theorem InRange.execute {s : Session σ} (h : s.InRange) (hp : 0x202 ≤ s.registers.pc.toNat) (address : UInt16)
    (latched : Option Keypress) (i : Instruction) : (s.execute address latched i).session.InRange := by
  obtain ⟨hl, hu⟩ := h.of_lands hp (lands_execute s address latched i)
  obtain ⟨hpa, hpl⟩ := program_execute s address latched i
  refine ⟨hl, hu, CallStack.depth_le _, fun frame hf => ?_, hpa ▸ h.program_ge, hpa ▸ h.program_lt, ?_⟩
  · rcases frames_execute s address latched i frame hf with hf | rfl
    · exact h.frames frame hf
    · exact ⟨hp, h.pc_le⟩
  · have := h.programEnd_le
    unfold Memory.programEnd at this ⊢
    rw [hpa, hpl]
    exact this

/-- A step keeps the range. -/
theorem InRange.step {s : Session σ} (h : s.InRange) (latched : Option Keypress) : (s.step latched).1.InRange := by
  rcases s.step_cases latched with ⟨_, _, e⟩ | ⟨_, _, _, e⟩ | ⟨op, _, hf, _, e⟩ | ⟨op, i, _, hf, _, e⟩
  · rw [e]
    exact h
  · rw [e]
    exact h.of_eq rfl rfl rfl
  · rw [e]
    exact (h.advance (h.fetch_eq_ok_iff.mp hf).1).1.of_eq rfl rfl rfl
  · rw [e]
    obtain ⟨ha, hp⟩ := h.advance (h.fetch_eq_ok_iff.mp hf).1
    refine (ha.execute hp s.registers.pc latched i).of_eq ?_ (Execution.stack_closed _) (Execution.memory_closed _)
    rw [Execution.registers_closed]

omit [Surface σ] in
/-- A load keeps the range: it changes nothing, or the program lies in the executable region. -/
theorem InRange.load {s : Session σ} (h : s.InRange) (program : List UInt8) (address : UInt16) :
    (s.load program address).2.InRange := by
  unfold Session.load
  split
  · exact h
  · rename_i m hm
    obtain ⟨hl, hu, he, ha, hn⟩ := Memory.of_load_eq_ok hm
    refine ⟨hl, ?_, h.depth_le, h.frames, ?_, ?_, ?_⟩
    · show address.toNat ≤ 0x1001
      omega
    · show 0x200 ≤ m.programAddress.toNat
      rw [ha]
      exact hl
    · show m.programAddress.toNat < 0x1000
      rw [ha]
      exact hu
    · show m.programAddress.toNat + m.programLength ≤ 0x1000
      rw [ha, hn]
      exact he

/-- Whatever is done to a session keeps the range. -/
theorem InRange.act {s : Session σ} (h : s.InRange) (a : Action (Option Keypress)) : (s.act a).1.InRange := by
  cases a with
  | load program address => exact h.load program address
  | step latched => exact h.step latched
  | tick => exact h.of_eq rfl rfl rfl
  | poll latched =>
    simp only [Session.act, poll]
    split
    · exact h
    · split
      · exact h.of_eq rfl rfl rfl
      · exact h
  | present => exact h.of_eq rfl rfl rfl

/-- Every reachable session is in range. -/
theorem Reachable.inRange {s : Session σ} (h : s.Reachable) : s.InRange := by
  induction h with
  | start settings entropy surface => exact inRange_start settings entropy surface
  | act a _ ih => exact ih.act a

end ChipEight.Session
