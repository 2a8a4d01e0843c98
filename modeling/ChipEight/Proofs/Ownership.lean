import ChipEight.Proofs.Lemmas.Timers
import ChipEight.Proofs.Lemmas.Writes
import ChipEight.Screen.Framebuffer

/-!
# Who may change what

Every part of a session has its owners among the instructions, and a step changes a part only if one of its owners comes next
(`Session.Framed`), whether or not the step ends the session. The tables of owners are `Instruction.owns`, `Instruction.writes`,
`Instruction.movesIndex`, `Instruction.sounds` and `Instruction.looks`.
-/

namespace ChipEight

namespace Session

variable {σ : Type}

/-- What a step of a session may have changed and told: nothing but what belongs to the instruction that comes next. -/
structure Framed (s : Session σ) (done : Session σ × List Effect) : Prop where
  /-- Cells of memory: Fx33 and Fx55, and only what they write from the index on. -/
  memory : ∀ a, done.1.memory.peek a ≠ s.memory.peek a → ∃ i, s.Next i ∧ i.owns .memory = true ∧
    s.registers.index.toNat ≤ a ∧ a < s.registers.index.toNat + i.span s.dialect
  /-- The call stack: 2nnn and 00EE. -/
  stack : done.1.stack ≠ s.stack → ∃ i, s.Next i ∧ i.owns .stack = true
  /-- The index: Annn, Fx1E and Fx29, and Fx33, Fx55 and Fx65 if the dialect does not keep it. -/
  index : done.1.registers.index ≠ s.registers.index → ∃ i, s.Next i ∧ i.movesIndex s.dialect = true
  /-- The delay timer: Fx15. -/
  delay : done.1.timers.delay ≠ s.timers.delay → ∃ i, s.Next i ∧ i.owns .delay = true
  /-- The sound timer: Fx18. -/
  sound : done.1.timers.sound ≠ s.timers.sound → ∃ i, s.Next i ∧ i.owns .sound = true
  /-- What the speaker is asked for: Fx17 and Fx18. -/
  calls : Effect.calls done.2 ≠ [] → ∃ i, s.Next i ∧ i.sounds = true
  /-- The surface: 00E0 and Dxyn. -/
  surface : done.1.surface ≠ s.surface → ∃ i, s.Next i ∧ i.owns .surface = true
  /-- The random bytes: Cxnn. -/
  random : done.1.random ≠ s.random → ∃ i, s.Next i ∧ i.owns .random = true
  /-- A register: its destination, the registers that are restored, and VF where it is the flag. -/
  register : ∀ r, done.1.registers.get r ≠ s.registers.get r → ∃ i, s.Next i ∧ i.writes s.dialect r
  /-- Ex9E, ExA1 and Fx0A look at the keypad once. -/
  looked : (∃ i, s.Next i ∧ i.looks = true) → done.2.count .keyLook = 1
  /-- All others do not look. -/
  unlooked : (∀ i, s.Next i → i.looks = false) → done.2.count .keyLook = 0
  /-- No instruction moves the program. -/
  program : done.1.memory.programAddress = s.memory.programAddress ∧ done.1.memory.programEnd = s.memory.programEnd
  /-- No instruction changes the dialect. -/
  dialect : done.1.dialect = s.dialect
  /-- 0000 and the extensions change nothing but the program counter. -/
  idle : ∀ i, s.Next i → i.idle = true → done.1 = { s with registers := s.registers.setPc (s.registers.pc + 2) }

/-- Nothing that has an owner has changed in a step that executed nothing. -/
theorem framed_of_not_next {s : Session σ} (h : ∀ i, ¬s.Next i) (pc : UInt16) (status : Status) :
    s.Framed ({ s with registers := s.registers.setPc pc, status := status }, []) where
  memory _ hne := absurd rfl hne
  stack hne := absurd rfl hne
  index hne := absurd rfl hne
  delay hne := absurd rfl hne
  sound hne := absurd rfl hne
  calls hne := absurd rfl hne
  surface hne := absurd rfl hne
  random hne := absurd rfl hne
  register _ hne := absurd rfl hne
  looked hi := absurd hi.choose_spec.1 (h _)
  unlooked _ := rfl
  program := ⟨rfl, rfl⟩
  dialect := rfl
  idle i hi := absurd hi (h i)

variable [Surface σ]

/-- Executing an instruction that does nothing leaves the session as it is. -/
theorem execute_of_idle (s : Session σ) (address : UInt16) (latched : Option Keypress) {i : Instruction} (hi : i.idle = true) :
    (s.execute address latched i).closed = s := by
  cases i with
  | nop => rfl
  | extension e => rfl
  | _ => cases hi

/-- What the execution of the next instruction has changed belongs to that instruction. -/
theorem framed_of_next {s : Session σ} {i : Instruction} (hn : s.Next i) (latched : Option Keypress) (record : StepRecord) :
    s.Framed ((s.advance.execute s.registers.pc latched i).closed,
      (s.advance.execute s.registers.pc latched i).effects ++ [.executed record]) := by
  have hleaves := leaves_execute s.advance s.registers.pc latched i
  have hkeeps := keeps_execute s.advance s.registers.pc latched i
  have hprogram := program_execute s.advance s.registers.pc latched i
  have hlooks := count_keyLook_execute s.advance s.registers.pc latched i
  have hcount : ((s.advance.execute s.registers.pc latched i).effects ++ [Effect.executed record]).count .keyLook =
      if i.looks then 1 else 0 := by
    rw [List.count_append, hlooks]
    rfl
  obtain ⟨status, hclosed⟩ := (s.advance.execute s.registers.pc latched i).closed_eq
  -- a part that is kept unless a table says so
  have owner : ∀ {P : Prop} {b : Bool}, (b = false → P) → ¬P → b = true := fun hkept hne =>
    eq_true_of_ne_false fun hb => hne (hkept hb)
  have hidle : i.idle = true → (s.advance.execute s.registers.pc latched i).closed =
      { s with registers := s.registers.setPc (s.registers.pc + 2) } := fun hi => execute_of_idle s.advance _ latched hi
  rw [hclosed] at hidle ⊢
  exact {
    memory := by
      intro a hne
      refine Classical.byContradiction fun hno => hne (peek_execute s.advance s.registers.pc latched i fun hi => ?_)
      have hout : ¬(s.registers.index.toNat ≤ a ∧ a < s.registers.index.toNat + i.span s.dialect) :=
        fun h => hno ⟨i, hn, hi, h⟩
      show a < s.registers.index.toNat ∨ s.registers.index.toNat + i.span s.dialect ≤ a
      omega
    stack := fun hne => ⟨i, hn, owner hleaves.stack hne⟩
    index := fun hne => ⟨i, hn, owner hkeeps.index hne⟩
    delay := fun hne => ⟨i, hn, owner hleaves.delay hne⟩
    sound := fun hne => ⟨i, hn, owner hleaves.sound hne⟩
    calls := by
      intro hne
      refine ⟨i, hn, owner (fun hi => ?_) hne⟩
      rw [Effect.calls_append, calls_execute hi]
      rfl
    surface := fun hne => ⟨i, hn, owner hleaves.surface hne⟩
    random := fun hne => ⟨i, hn, owner hleaves.random hne⟩
    register := fun r hne => ⟨i, hn, Classical.byContradiction fun hno => hne (hkeeps.get r hno)⟩
    looked := by
      rintro ⟨j, hj, hl⟩
      cases hn.unique hj
      exact hcount.trans (if_pos hl)
    unlooked := by
      intro hl
      rw [hcount, hl i hn]
      rfl
    program := by
      refine ⟨hprogram.1, ?_⟩
      rw [Memory.programEnd, Memory.programEnd, hprogram.1, hprogram.2]
      rfl
    dialect := hleaves.dialect
    idle := by
      intro j hj hi
      cases hn.unique hj
      exact hidle hi }

/-- A step of a running session in range changes only what belongs to the instruction that comes next. -/
theorem InRange.framed_step {s : Session σ} (h : s.InRange) (hr : s.status = .running) (latched : Option Keypress) :
    s.Framed (s.step latched) := by
  rcases s.step_cases latched with ⟨_, hh, _⟩ | ⟨reason, _, hf, e⟩ | ⟨op, _, hf, hd, e⟩ | ⟨op, i, _, hf, hd, e⟩
  · cases hr.symm.trans hh
  · have hnone : ∀ i, ¬s.Next i := fun i hi => absurd hi.lt (Nat.not_lt.mpr (h.fetch_eq_error_iff.mp hf).1)
    rw [e]
    exact framed_of_not_next hnone s.registers.pc (.halted reason)
  · rw [e]
    exact framed_of_not_next ((h.nextWord_iff.mp hf).not_next hd) (s.registers.pc + Flow.instructionBytes) _
  · rw [e]
    exact framed_of_next (next_of_fetch hf hd) latched _

end Session

namespace Console

variable {σ κ : Type} [Surface σ] [Keypad κ]

/-- A step that looks at the keypad leaves it as it is after a look, and one that does not leaves it alone. -/
theorem keypad_step (c : Console σ κ) (now : Nat) :
    (c.step now).keypad =
      if (c.session.step (Keypad.look c.keypad now).1).2.count .keyLook = 0 then c.keypad
      else (Keypad.look c.keypad now).2 := by
  have hkeypad : (c.step now).keypad =
      c.keypadAfter (Keypad.look c.keypad now).2 (c.session.step (Keypad.look c.keypad now).1).2 := keypad_foldl_hear _ _
  rw [hkeypad, keypadAfter]
  by_cases hm : Effect.keyLook ∈ (c.session.step (Keypad.look c.keypad now).1).2
  · rw [if_pos (List.contains_iff_mem.mpr hm), if_neg (Nat.ne_of_gt (List.count_pos_iff.mpr hm))]
  · rw [if_neg fun hc => hm (List.contains_iff_mem.mp hc), if_pos (List.count_eq_zero.mpr hm)]

end Console

namespace Session

variable {σ : Type} [Surface σ]

/-- A step of a reachable running session changes no part of it, and tells the speaker and asks the keypad nothing, but what belongs
to the instruction that comes next, whether it succeeds or not. With a keypad at hand, the keypad is the one after a single look if
the instruction looks, and otherwise untouched. -/
theorem frame_of_step {s : Session σ} (h : s.Reachable) (hr : s.status = .running) :
    (∀ latched, s.Framed (s.step latched)) ∧
    ∀ {κ : Type} [Keypad κ] (c : Console σ κ) (now : Nat), c.session = s →
      ((∃ i, s.Next i ∧ i.looks = true) → (c.step now).keypad = (Keypad.look c.keypad now).2) ∧
      ((∀ i, s.Next i → i.looks = false) → (c.step now).keypad = c.keypad) := by
  refine ⟨h.inRange.framed_step hr, ?_⟩
  rintro κ _ c now rfl
  have hframe := h.inRange.framed_step hr (Keypad.look c.keypad now).1
  refine ⟨fun hlooks => ?_, fun hno => ?_⟩
  · rw [c.keypad_step, hframe.looked hlooks]
    rfl
  · rw [c.keypad_step, hframe.unlooked hno]
    rfl

/-- A session that is about to write the digits of 123 over the start of memory. -/
def counted : Session (Framebuffer .standard) :=
  ((loaded (.blank .standard) [0x60, 0x7b, 0xf0, 0x33] 0x200).act (.step none)).1

/-- The last digit lands in the third cell, which changes, so an instruction that owns the memory comes next; and the keypad is
left alone. -/
theorem frame_of_step_decimal :
    counted.Next (.decimal 0) ∧ (counted.step none).1.memory.peek 2 = 3 ∧ counted.memory.peek 2 = 0 ∧
      (∃ i, counted.Next i ∧ i.owns .memory = true ∧ 0 ≤ 2 ∧ 2 < 0 + i.span counted.dialect) ∧
      (counted.step none).2.count .keyLook = 0 := by
  have hreach : counted.Reachable := (reachable_loaded _ _ _).act _
  have hnext : counted.Next (.decimal 0) := ⟨_, ⟨by decide +kernel, rfl⟩, by decide +kernel⟩
  have hframe := (frame_of_step hreach (by decide +kernel)).1 none
  have hafter : (counted.step none).1.memory.peek 2 = 3 := by decide +kernel
  have hbefore : counted.memory.peek 2 = 0 := by decide +kernel
  have hindex : counted.registers.index.toNat = 0 := by decide +kernel
  have howner := hframe.memory 2 (by rw [hafter, hbefore]; decide)
  rw [hindex] at howner
  refine ⟨hnext, hafter, hbefore, howner, hframe.unlooked fun i hi => ?_⟩
  cases hi.unique hnext
  rfl

end Session

end ChipEight
