import ChipEight.Proofs.Lemmas.Halts
import ChipEight.Screen.Framebuffer

/-!
# Program counter, stack and program stay in their places

In every run of every program the program counter, the return addresses and the loaded program stay in or just behind the
executable region. So no fetch leaves memory, the sixteen bits of the program counter never wrap, and a fault that names an
instruction names the one that was fetched.
-/

namespace ChipEight

variable {σ : Type} [Surface σ]

/-- The address of an instruction that a fault names, for the faults that name one. -/
def Fault.culprit? : Fault → Option UInt16
  | .undefinedOpcode _ address | .stackOverflow address | .stackUnderflow address => some address
  | .outOfRange _ | .programTooLarge _ _ => none

namespace Session

omit [Surface σ] in
/-- A listed fault that names an instruction names the one at the program counter, and that one was fetched. -/
theorem Halts.culprit_eq {s : Session σ} {latched : Option Keypress} {f : Fault} {address : UInt16}
    (h : s.Halts latched (.fault f)) (hc : f.culprit? = some address) :
    address = s.registers.pc ∧ ∃ op, s.NextWord op := by
  cases h with
  | undefinedOpcode hw => exact ⟨(Option.some.inj hc).symm, _, hw⟩
  | stackUnderflow hn | stackOverflow hn =>
    obtain ⟨op, hw, -⟩ := hn
    exact ⟨(Option.some.inj hc).symm, op, hw⟩
  | call | jump | jumpIndirect | skip | span => cases hc

/-- Every reachable session is in range, and from there its next step neither fetches outside memory nor wraps the program
counter, forwards over the fetched word or back over it. A step that ends in a fault with the address of an instruction ends in
one with the address it fetched from. -/
theorem range_of_reachable {s : Session σ} (h : s.Reachable) :
    (0x200 ≤ s.registers.pc.toNat ∧ s.registers.pc.toNat ≤ 0x1001 ∧ s.stack.depth ≤ 16 ∧
      (∀ frame ∈ s.stack.frames, 0x202 ≤ frame.toNat ∧ frame.toNat ≤ 0x1001) ∧
      0x200 ≤ s.memory.programAddress.toNat ∧ s.memory.programAddress.toNat < 0x1000 ∧ s.memory.programEnd ≤ 0x1000) ∧
    (∀ f, s.fetch ≠ .error (.fault f)) ∧
    (s.advance.registers.pc.toNat = s.registers.pc.toNat + 2 ∧
      (s.advance.registers.pc - Flow.instructionBytes).toNat + 2 = s.advance.registers.pc.toNat) ∧
    (∀ latched f address, s.status = .running → (s.step latched).1.status = .halted (.fault f) →
      f.culprit? = some address → address = s.registers.pc ∧ ∃ op, s.fetch = .ok op) := by
  have hs := h.inRange
  have hpc := hs.toNat_pc_advance
  refine ⟨⟨hs.pc_ge, hs.pc_le, hs.depth_le, hs.frames, hs.program_ge, hs.program_lt, hs.programEnd_le⟩, ?_, ⟨hpc, ?_⟩, ?_⟩
  · intro f hf
    obtain ⟨-, he⟩ := hs.fetch_eq_error_iff.mp hf
    cases he
  · rw [pc_advance_sub, hpc]
  · intro latched f address hr hf hc
    obtain ⟨ha, op, hw⟩ := ((hs.step_eq_halted_iff hr latched _).mp hf).culprit_eq hc
    exact ⟨ha, op, hs.nextWord_iff.mpr hw⟩

/-- The bounds are met: behind a program of one byte in the last place of the region, whose word reaches into the font and is no
instruction, the program counter is 0x1001. -/
theorem range_of_reachable_last_byte :
    (loaded (Framebuffer.blank .standard) [0x00] 0xfff).Reachable ∧
      ((loaded (Framebuffer.blank .standard) [0x00] 0xfff).step none).1.status =
        .halted (.fault (.undefinedOpcode 0x00f0 0xfff)) ∧
      (0xfff : UInt16) = (loaded (Framebuffer.blank .standard) [0x00] 0xfff).registers.pc ∧
      ((loaded (Framebuffer.blank .standard) [0x00] 0xfff).step none).1.registers.pc = 0x1001 ∧
      ((loaded (Framebuffer.blank .standard) [0x00] 0xfff).step none).1.registers.pc.toNat ≤ 0x1001 := by
  have hr := reachable_loaded (Framebuffer.blank .standard) [0x00] 0xfff
  have hafter : ((loaded (Framebuffer.blank .standard) [0x00] 0xfff).step none).1.Reachable := hr.act (.step none)
  have hf : ((loaded (Framebuffer.blank .standard) [0x00] 0xfff).step none).1.status =
      .halted (.fault (.undefinedOpcode 0x00f0 0xfff)) := by decide +kernel
  have hculprit := (range_of_reachable hr).2.2.2 none _ 0xfff rfl hf rfl
  exact ⟨hr, hf, hculprit.1, by decide +kernel, (range_of_reachable hafter).1.2.1⟩

end Session

end ChipEight
