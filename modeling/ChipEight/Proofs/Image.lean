import ChipEight.Proofs.Lemmas.Halts
import ChipEight.Screen.Framebuffer

/-!
# Which bytes are executed

The end of a program is found by the first byte of a word alone. So every executed word starts inside the program, but one that
starts at the last byte takes its second byte from behind the program: from the font, or from what an earlier program or the
running one left there.
-/

namespace ChipEight.Session

variable {σ : Type}

/-- That an instruction was fetched from the memory of a session and executed. -/
structure Fetched (s : Session σ) (record : StepRecord) : Prop where
  running : s.status = .running
  address : record.address = s.registers.pc
  word : record.opcode = .ofBytes (s.memory.peek record.address.toNat) (s.memory.peek (record.address.toNat + 1))
  instruction : Instruction.decode record.opcode = some record.instruction
  /-- The first byte is a byte of the executable region below the end of the program. -/
  first : 0x200 ≤ record.address.toNat ∧ record.address.toNat < s.memory.programEnd ∧ s.memory.programEnd ≤ 0x1000

variable [Surface σ]

/-- Executing an instruction tells of nothing that was executed. -/
theorem executed_not_mem_execute (s : Session σ) (address : UInt16) (latched : Option Keypress) (i : Instruction)
    (record : StepRecord) : Effect.executed record ∉ (s.execute address latched i).effects := by
  rw [effects_execute]
  intro hm
  cases i with
  | setPitch x =>
    obtain ⟨hertz, -, he⟩ := List.mem_map.mp hm
    cases he
  | _ => simp [Instruction.tells] at hm

/-- What a step tells that it has executed was fetched at the program counter. -/
theorem InRange.fetched_of_mem_step {s : Session σ} (h : s.InRange) {latched : Option Keypress} {record : StepRecord}
    (hm : .executed record ∈ (s.step latched).2) : s.Fetched record := by
  rcases s.step_cases latched with ⟨_, _, e⟩ | ⟨_, _, _, e⟩ | ⟨op, _, _, _, e⟩ | ⟨op, i, hr, hf, hd, e⟩
  · rw [e] at hm
    cases hm
  · rw [e] at hm
    cases hm
  · rw [e] at hm
    cases hm
  · obtain ⟨hlt, hop⟩ := h.fetch_eq_ok_iff.mp hf
    rw [e, List.mem_append, List.mem_singleton] at hm
    rcases hm with hm | hm
    · exact absurd hm (executed_not_mem_execute _ _ _ _ _)
    · cases hm
      exact ⟨hr, rfl, hop, hd, h.pc_ge, hlt, h.programEnd_le⟩

/-- What was executed in a run was executed in one of its steps. -/
theorem exists_step_of_mem_actAll {s : Session σ} {actions : List (Action (Option Keypress))} {record : StepRecord}
    (hm : .executed record ∈ (s.actAll actions).2) :
    ∃ before look, before ++ [.step look] <+: actions ∧ .executed record ∈ ((s.actAll before).1.step look).2 := by
  induction actions generalizing s with
  | nil => cases hm
  | cons a rest ih =>
    simp only [actAll, List.mem_append] at hm
    rcases hm with hm | hm
    · cases a with
      | step look => exact ⟨[], look, ⟨rest, rfl⟩, hm⟩
      | load program address => cases hm
      | tick =>
        obtain ⟨call, -, he⟩ := List.mem_map.mp hm
        cases he
      | poll look =>
        simp only [act, poll] at hm
        split at hm
        · cases hm
        · rw [List.mem_singleton] at hm
          cases hm
      | present => cases hm
    · obtain ⟨before, look, hprefix, hin⟩ := ih hm
      exact ⟨a :: before, look, List.cons_prefix_cons.mpr ⟨rfl, hprefix⟩, hin⟩

/-- A word that starts inside the program and is an instruction is executed. -/
theorem InRange.executed_of_next {s : Session σ} (h : s.InRange) (hr : s.status = .running) {op : Opcode} {i : Instruction}
    (hw : s.NextWord op) (hd : Instruction.decode op = some i) (latched : Option Keypress) :
    ∃ record, .executed record ∈ (s.step latched).2 ∧ record.opcode = op ∧ record.instruction = i := by
  rw [step_of_decode hr (h.nextWord_iff.mpr hw) hd]
  exact ⟨_, List.mem_append_right _ (List.mem_singleton.mpr rfl), rfl, rfl⟩

/-- Every instruction that a run of a reachable session executes was fetched, in the state before its step, at the program counter:
the first byte of its word is below the end of the program, and the second is too unless the first is the last byte of the program.
At the last byte the session does not stop: whatever byte is behind the program completes the word, and if the word is an
instruction, it is executed. -/
theorem executed_words {s : Session σ} (h : s.Reachable) :
    (∀ actions record, .executed record ∈ (s.actAll actions).2 →
      ∃ before look, before ++ [.step look] <+: actions ∧ (s.actAll before).1.Fetched record ∧
        (record.address.toNat + 1 < (s.actAll before).1.memory.programEnd ↔
          record.address.toNat + 1 ≠ (s.actAll before).1.memory.programEnd)) ∧
    (s.status = .running → s.registers.pc.toNat + 1 = s.memory.programEnd → ∀ i,
      Instruction.decode (.ofBytes (s.memory.peek s.registers.pc.toNat) (s.memory.peek s.memory.programEnd)) = some i →
      ∀ latched, ∃ record, .executed record ∈ (s.step latched).2 ∧ record.instruction = i ∧
        record.opcode = .ofBytes (s.memory.peek s.registers.pc.toNat) (s.memory.peek s.memory.programEnd)) := by
  refine ⟨fun actions record hm => ?_, fun hr hlast i hd latched => ?_⟩
  · obtain ⟨before, look, hprefix, hin⟩ := exists_step_of_mem_actAll hm
    have hfetched := (h.actAll before).inRange.fetched_of_mem_step hin
    have hlt := hfetched.first.2.1
    exact ⟨before, look, hprefix, hfetched, by omega⟩
  · have hw : s.NextWord (.ofBytes (s.memory.peek s.registers.pc.toNat) (s.memory.peek s.memory.programEnd)) :=
      ⟨by omega, by rw [hlast]⟩
    obtain ⟨record, hm, hop, hi⟩ := h.inRange.executed_of_next hr hw hd latched
    exact ⟨record, hm, hi, hop⟩

/-- A session in a program of one byte, the last one of the executable region. Behind it is the font. -/
def atLastByte : Session (Framebuffer .standard) := loaded (.blank .standard) [0x60] 0xfff

/-- The next word there is the byte of the program and the first byte of the font. -/
theorem nextWord_atLastByte : atLastByte.NextWord (.ofBytes 0x60 0xf0) := by
  refine ⟨by decide +kernel, ?_⟩
  decide +kernel

/-- The byte of the program and the first byte of the font are executed as one word. -/
theorem executed_words_font :
    atLastByte.Reachable ∧ atLastByte.memory.programEnd = 0x1000 ∧ atLastByte.registers.pc.toNat + 1 = 0x1000 ∧
      (∃ record, .executed record ∈ (atLastByte.step none).2 ∧ record.instruction = .setByte 0 0xf0 ∧
        record.opcode = .ofBytes (atLastByte.memory.peek atLastByte.registers.pc.toNat)
          (atLastByte.memory.peek atLastByte.memory.programEnd)) ∧
      (atLastByte.step none).1.registers.get 0 = 0xf0 := by
  have hreach : atLastByte.Reachable := reachable_loaded _ _ _
  have hend : atLastByte.memory.programEnd = 0x1000 := by decide +kernel
  have hpc : atLastByte.registers.pc.toNat + 1 = 0x1000 := by decide +kernel
  have hlast : atLastByte.registers.pc.toNat + 1 = atLastByte.memory.programEnd := hpc.trans hend.symm
  have hword := nextWord_atLastByte.2
  rw [hlast] at hword
  refine ⟨hreach, hend, hpc, ?_, by decide +kernel⟩
  exact (executed_words hreach).2 rfl hlast _ (hword ▸ by decide) none

/-- Not every executed word lies below the end of the program whole. -/
theorem not_forall_executed_below_end :
    ¬∀ (s : Session (Framebuffer .standard)) (latched : Option Keypress) (record : StepRecord), s.Reachable →
      .executed record ∈ (s.step latched).2 → record.address.toNat + 1 < s.memory.programEnd := by
  intro hall
  have hreach : atLastByte.Reachable := reachable_loaded _ _ _
  have hdecode : Instruction.decode (.ofBytes 0x60 0xf0) = some (.setByte 0 0xf0) := by decide
  obtain ⟨record, hm, -, -⟩ := hreach.inRange.executed_of_next rfl nextWord_atLastByte hdecode none
  have haddress := (hreach.inRange.fetched_of_mem_step hm).address
  have hlt := hall atLastByte none record hreach hm
  rw [haddress] at hlt
  exact absurd hlt (by decide +kernel)

end ChipEight.Session
