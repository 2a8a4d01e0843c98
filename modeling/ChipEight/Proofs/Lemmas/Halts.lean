import ChipEight.Proofs.Lemmas.Decode
import ChipEight.Proofs.Lemmas.Range

/-!
# Why a step halts

`Session.Halts` lists the reasons for which the next step of a running session halts, one constructor for each, in the terms of
the instruction that comes next and the registers, the stack and the key it meets. `Session.InRange.step_eq_halted_iff` says that
the list is exact.
-/

namespace ChipEight

variable {σ : Type}

/-! ## What comes next -/

namespace Session

/-- The next step fetches a word: the program counter is inside the program, and the word stands there. -/
def NextWord (s : Session σ) (op : Opcode) : Prop :=
  s.registers.pc.toNat < s.memory.programEnd ∧
    op = .ofBytes (s.memory.peek s.registers.pc.toNat) (s.memory.peek (s.registers.pc.toNat + 1))

/-- The next step executes an instruction. -/
def Next (s : Session σ) (i : Instruction) : Prop := ∃ op, s.NextWord op ∧ Instruction.decode op = some i

/-- A fetched instruction comes next. -/
theorem next_of_fetch {s : Session σ} {op : Opcode} {i : Instruction} (hf : s.fetch = .ok op)
    (hd : Instruction.decode op = some i) : s.Next i := by
  obtain ⟨hlt, -, ho⟩ := fetch_eq_ok_iff.mp hf
  exact ⟨op, ⟨hlt, ho⟩, hd⟩

/-- There is at most one next instruction. -/
theorem Next.unique {s : Session σ} {i j : Instruction} (hi : s.Next i) (hj : s.Next j) : i = j := by
  obtain ⟨op, ⟨-, rfl⟩, hi⟩ := hi
  obtain ⟨op', ⟨-, rfl⟩, hj⟩ := hj
  exact Option.some.inj (hi.symm.trans hj)

/-- What comes next is inside the program. -/
theorem Next.lt {s : Session σ} {i : Instruction} (h : s.Next i) : s.registers.pc.toNat < s.memory.programEnd := by
  obtain ⟨op, hw, -⟩ := h
  exact hw.1

/-- A word that is no instruction is not followed by one. -/
theorem NextWord.not_next {s : Session σ} {op : Opcode} (hw : s.NextWord op) (hd : Instruction.decode op = none)
    (i : Instruction) : ¬s.Next i := by
  obtain ⟨-, rfl⟩ := hw
  rintro ⟨op, ⟨-, rfl⟩, hi⟩
  cases hd.symm.trans hi

end Session

namespace Instruction

/-- Whether an instruction is a skip whose condition holds. With a cancel latched no key instruction gets as far as its
condition. -/
def skips (r : Registers) (latched : Option Keypress) : Instruction → Prop
  | .skipIfByte x byte => r.get x = byte
  | .skipUnlessByte x byte => r.get x ≠ byte
  | .skipIfSame x y => r.get x = r.get y
  | .skipUnlessSame x y => r.get x ≠ r.get y
  | .skipIfKey x => latched = some (.key (r.get x))
  | .skipUnlessKey x => latched ≠ some .cancel ∧ latched ≠ some (.key (r.get x))
  | _ => False

/-- Whether an instruction looks at the keypad. -/
def looks : Instruction → Bool
  | .skipIfKey _ | .skipUnlessKey _ | .waitKey _ => true
  | _ => false

/-- How many bytes of memory from the index on an instruction touches. -/
def span (d : Dialect) : Instruction → Nat
  | .draw _ _ n => Sprite.rows d n
  | .decimal _ => 3
  | .store x | .restore x => x.val + 1
  | _ => 0

end Instruction

/-- The reasons for which the next step of a running session halts. -/
inductive Session.Halts (s : Session σ) (latched : Option Keypress) : HaltReason → Prop where
  /-- The program counter is at the end of the program or behind it. -/
  | endOfProgram (h : s.memory.programEnd ≤ s.registers.pc.toNat) : Halts s latched .endOfProgram
  /-- The next word is no instruction. -/
  | undefinedOpcode {op : Opcode} (hw : s.NextWord op) (h : Instruction.decode op = none) :
    Halts s latched (.fault (.undefinedOpcode op.word s.registers.pc))
  /-- A return with no open call. -/
  | stackUnderflow (hn : s.Next .ret) (h : s.stack.depth = 0) : Halts s latched (.fault (.stackUnderflow s.registers.pc))
  /-- A call with all frames in use, wherever it goes. -/
  | stackOverflow {target : UInt16} (hn : s.Next (.call target)) (h : s.stack.depth = 16) :
    Halts s latched (.fault (.stackOverflow s.registers.pc))
  /-- A call below the executable region. -/
  | call {target : UInt16} (hn : s.Next (.call target)) (hd : s.stack.depth ≠ 16) (h : target.toNat < 0x200) :
    Halts s latched (.fault (.outOfRange target.toNat))
  /-- A jump below the executable region. -/
  | jump {target : UInt16} (hn : s.Next (.jump target)) (h : target.toNat < 0x200) :
    Halts s latched (.fault (.outOfRange target.toNat))
  /-- An indirect jump out of the executable region. -/
  | jumpIndirect {target : UInt16} (hn : s.Next (.jumpIndirect target))
    (h : target.toNat + (s.registers.get firstRegister).toNat < 0x200 ∨ 0x1000 ≤ target.toNat + (s.registers.get firstRegister).toNat) :
    Halts s latched (.fault (.outOfRange (target.toNat + (s.registers.get firstRegister).toNat)))
  /-- A skip over the end of the executable region. -/
  | skip {i : Instruction} (hn : s.Next i) (hs : i.skips s.registers latched) (h : 0x1000 ≤ s.registers.pc.toNat + 4) :
    Halts s latched (.fault (.outOfRange (s.registers.pc.toNat + 4)))
  /-- A key instruction that sees the wish to end. -/
  | cancelled {i : Instruction} (hn : s.Next i) (hl : i.looks = true) (h : latched = some .cancel) : Halts s latched .cancelled
  /-- A stop. -/
  | exit {x : Register} (hn : s.Next (.stop x)) : Halts s latched (.exit (s.registers.get x))
  /-- An access at the index that passes the end of memory. -/
  | span {i : Instruction} (hn : s.Next i) (h : 0x10000 < s.registers.index.toNat + i.span s.dialect) :
    Halts s latched (.fault (.outOfRange 0x10000))

namespace Session

/-- At the end of the program that is the only reason. -/
theorem Halts.eq_of_end {s : Session σ} {latched : Option Keypress} {reason : HaltReason} (hh : s.Halts latched reason)
    (he : s.memory.programEnd ≤ s.registers.pc.toNat) : reason = .endOfProgram := by
  cases hh with
  | endOfProgram => rfl
  | undefinedOpcode hw => exact absurd hw.1 (Nat.not_lt.mpr he)
  | stackUnderflow hn | stackOverflow hn | call hn | jump hn | jumpIndirect hn | skip hn | cancelled hn | exit hn | span hn =>
    exact absurd hn.lt (Nat.not_lt.mpr he)

/-- At a word that is no instruction that is the only reason. -/
theorem Halts.eq_of_undefined {s : Session σ} {latched : Option Keypress} {reason : HaltReason} (hh : s.Halts latched reason)
    {op : Opcode} (hw : s.NextWord op) (hd : Instruction.decode op = none) :
    reason = .fault (.undefinedOpcode op.word s.registers.pc) := by
  cases hh with
  | endOfProgram he => exact absurd hw.1 (Nat.not_lt.mpr he)
  | undefinedOpcode hw' => rw [hw.2, hw'.2]
  | stackUnderflow hn | stackOverflow hn | call hn | jump hn | jumpIndirect hn | skip hn | cancelled hn | exit hn | span hn =>
    exact absurd hn (hw.not_next hd _)

end Session

/-! ## The reason in a result -/

namespace Execution

/-- The reason to halt that a result gives: its fault, if it is one. -/
def reason? {α : Type} : Except Fault α → Option HaltReason
  | .ok _ => none
  | .error f => some (.fault f)

theorem reason?_eq_some_iff {α : Type} {e : Except Fault α} {reason : HaltReason} :
    reason? e = some reason ↔ ∃ f, e = .error f ∧ reason = .fault f := by
  cases e with
  | ok a => simp [reason?]
  | error f => simp [reason?, eq_comm]

@[simp] theorem halt_ofRegisters (s : Session σ) (effects : List Effect) (e : Except Fault Registers) :
    (ofRegisters s effects e).halt = reason? e := by
  cases e <;> rfl

@[simp] theorem halt_ofFlow (s : Session σ) (effects : List Effect) (e : Except Fault (Registers × CallStack)) :
    (ofFlow s effects e).halt = reason? e := by
  cases e <;> rfl

/-- A skip on a key ends the session on a cancel, and otherwise halts like any skip. -/
theorem halt_ofGate_skip (s : Session σ) (latched : Option Keypress) (expected : UInt8) (pressed : Bool) :
    (ofGate s (Gate.skip s.registers latched expected pressed)).halt =
      if latched = some .cancel then some .cancelled
      else reason? (Flow.skipIf s.registers (decide (latched = some (.key expected)) == pressed)) := by
  unfold Gate.skip
  split
  · rfl
  · cases Flow.skipIf s.registers (decide (latched = some (.key expected)) == pressed) <;> rfl

/-- A closed execution has halted for a reason exactly when it gave that reason, if the session was running. -/
theorem status_closed_eq_halted_iff {e : Execution σ} (h : e.session.status = .running) {reason : HaltReason} :
    e.closed.status = .halted reason ↔ e.halt = some reason := by
  unfold closed
  cases he : e.halt with
  | none => simp [h]
  | some r => simp

end Execution

namespace Flow

/-- A jump gives a reason to halt when its target is not executable. -/
theorem reason?_jump {r : Registers} {address : Nat} {reason : HaltReason} :
    Execution.reason? (jump r address) = some reason ↔
      (address < 0x200 ∨ 0x1000 ≤ address) ∧ reason = .fault (.outOfRange address) := by
  rw [jump_eq]
  split
  · rename_i he
    constructor
    · intro h
      cases h
    · rintro ⟨hout, -⟩
      omega
  · rename_i he
    simp only [Execution.reason?, Option.some.injEq]
    constructor
    · intro h
      exact ⟨by omega, h.symm⟩
    · rintro ⟨-, rfl⟩
      rfl

/-- A skip gives a reason to halt when it would leave the executable region. -/
theorem reason?_skipIf {r : Registers} {condition : Bool} {reason : HaltReason} (h : 0x200 ≤ r.pc.toNat) :
    Execution.reason? (skipIf r condition) = some reason ↔
      condition = true ∧ 0x1000 ≤ r.pc.toNat + 2 ∧ reason = .fault (.outOfRange (r.pc.toNat + 2)) := by
  cases condition with
  | false => simp [Execution.reason?]
  | true =>
    rw [skipIf_true, reason?_jump]
    constructor
    · rintro ⟨hout, rfl⟩
      exact ⟨rfl, by omega, rfl⟩
    · rintro ⟨-, hfar, rfl⟩
      exact ⟨Or.inr hfar, rfl⟩

end Flow

namespace Session

/-! ## Accesses at the index -/

/-- The reason to halt that an access of some bytes at the index gives. -/
def overrun? (s : Session σ) (count : Nat) : Option HaltReason :=
  if s.registers.index.toNat + count ≤ 0x10000 then none else some (.fault (.outOfRange 0x10000))

theorem overrun?_eq_some_iff {s : Session σ} {count : Nat} {reason : HaltReason} :
    s.overrun? count = some reason ↔
      0x10000 < s.registers.index.toNat + count ∧ reason = .fault (.outOfRange 0x10000) := by
  unfold overrun?
  split
  · rename_i hfits
    constructor
    · intro h
      cases h
    · rintro ⟨hpass, -⟩
      omega
  · rename_i hpass
    rw [Option.some.injEq]
    constructor
    · intro h
      exact ⟨by omega, h.symm⟩
    · rintro ⟨-, rfl⟩
      rfl

/-- The index is an address in memory, so an access that passes the end names the end. -/
theorem max_index_size (s : Session σ) : max s.registers.index.toNat Memory.size = 0x10000 := by
  have h := s.registers.index.toNat_lt
  have hsize : Memory.size = 0x10000 := rfl
  omega

variable [Surface σ]

theorem halt_draw (s : Session σ) (address : UInt16) (latched : Option Keypress) (x y : Register) (n : UInt8) :
    (s.execute address latched (.draw x y n)).halt = s.overrun? (Sprite.rows s.dialect n) := by
  simp only [execute, Sprite.draw, Memory.read_eq, max_index_size, overrun?]
  by_cases h : s.registers.index.toNat + Sprite.rows s.dialect n ≤ Memory.size
  · rw [if_pos h, if_pos (show _ ≤ 0x10000 from h)]
    rfl
  · rw [if_neg h, if_neg (show ¬_ ≤ 0x10000 from h)]
    rfl

theorem halt_decimal (s : Session σ) (address : UInt16) (latched : Option Keypress) (x : Register) :
    (s.execute address latched (.decimal x)).halt = s.overrun? 3 := by
  simp only [execute, Transfer.storeDecimal, Memory.write_eq, max_index_size, overrun?, Transfer.decimalDigits,
    List.length_cons, List.length_nil, Nat.zero_add, Nat.reduceAdd]
  by_cases h : s.registers.index.toNat + 3 ≤ Memory.size
  · rw [if_pos h, if_pos (show _ ≤ 0x10000 from h)]
    rfl
  · rw [if_neg h, if_neg (show ¬_ ≤ 0x10000 from h)]
    rfl

theorem halt_store (s : Session σ) (address : UInt16) (latched : Option Keypress) (x : Register) :
    (s.execute address latched (.store x)).halt = s.overrun? (x.val + 1) := by
  simp only [execute, Transfer.store_eq _ _ _ (Fin.zero_le x), overrun?, Fin.val_zero, Nat.sub_zero]
  by_cases h : s.registers.index.toNat + (x.val + 1) ≤ 0x10000
  · rw [if_pos h, if_pos h]
    rfl
  · rw [if_neg h, if_neg h]
    rfl

theorem halt_restore (s : Session σ) (address : UInt16) (latched : Option Keypress) (x : Register) :
    (s.execute address latched (.restore x)).halt = s.overrun? (x.val + 1) := by
  simp only [execute, Transfer.restore_eq _ _ _ (Fin.zero_le x), overrun?, Fin.val_zero, Nat.sub_zero]
  by_cases h : s.registers.index.toNat + (x.val + 1) ≤ 0x10000
  · rw [if_pos h, if_pos h]
    rfl
  · rw [if_neg h, if_neg h]
    rfl

/-! ## The reason an instruction gives -/

omit [Surface σ] in
theorem InRange.nextWord_iff {s : Session σ} (h : s.InRange) {op : Opcode} : s.fetch = .ok op ↔ s.NextWord op :=
  h.fetch_eq_ok_iff

omit [Surface σ] in
/-- A skip behind the fetch gives a reason to halt when its condition holds and four bytes on is too far. -/
theorem InRange.reason?_skipIf {s : Session σ} (h : s.InRange) {condition : Bool} {reason : HaltReason} :
    Execution.reason? (Flow.skipIf s.advance.registers condition) = some reason ↔
      condition = true ∧ 0x1000 ≤ s.registers.pc.toNat + 4 ∧ reason = .fault (.outOfRange (s.registers.pc.toNat + 4)) := by
  have hpc := h.toNat_pc_advance
  have hge := h.pc_ge
  rw [Flow.reason?_skipIf (by omega), hpc]

/-- The instruction that comes next gives only listed reasons to halt. -/
theorem InRange.halts_of_execute {s : Session σ} (h : s.InRange) {op : Opcode} (hw : s.NextWord op) {i : Instruction}
    (hd : Instruction.decode op = some i) {latched : Option Keypress} {reason : HaltReason}
    (he : (s.advance.execute s.registers.pc latched i).halt = some reason) : s.Halts latched reason := by
  have hn : s.Next i := ⟨op, hw, hd⟩
  have hback := pc_advance_sub s
  -- a skip on a key, whichever way it asks
  have key : ∀ {expected : UInt8} {pressed : Bool}, i.looks = true →
      (latched ≠ some .cancel → (decide (latched = some (.key expected)) == pressed) = true →
        i.skips s.registers latched) →
      (Execution.ofGate s.advance (Gate.skip s.advance.registers latched expected pressed)).halt = some reason →
      s.Halts latched reason := by
    intro expected pressed hl hs hg
    rw [Execution.halt_ofGate_skip] at hg
    split at hg
    · rename_i hc
      cases hg
      exact .cancelled hn hl hc
    · rename_i hc
      obtain ⟨hcond, hfar, rfl⟩ := h.reason?_skipIf.mp hg
      exact .skip hn (hs hc hcond) hfar
  cases i with
  | ret =>
    simp only [Session.execute, Execution.halt_ofFlow] at he
    obtain ⟨f, hf, rfl⟩ := Execution.reason?_eq_some_iff.mp he
    obtain ⟨hz, rfl⟩ := Flow.ret_eq_error_iff.mp hf
    exact hback ▸ .stackUnderflow hn hz
  | jump target =>
    simp only [Session.execute, Execution.halt_ofRegisters] at he
    have hlt := Instruction.target_lt_of_decode hd rfl
    obtain ⟨hout, rfl⟩ := Flow.reason?_jump.mp he
    exact .jump hn (by omega)
  | call target =>
    simp only [Session.execute, Execution.halt_ofFlow] at he
    have hlt := Instruction.target_lt_of_decode hd rfl
    obtain ⟨f, hf, rfl⟩ := Execution.reason?_eq_some_iff.mp he
    rcases Flow.call_eq_error_iff.mp hf with ⟨hfull, rfl⟩ | ⟨hroom, hout, rfl⟩
    · exact hback ▸ .stackOverflow hn hfull
    · exact .call hn hroom (by omega)
  | jumpIndirect target =>
    simp only [Session.execute, Execution.halt_ofRegisters, Flow.indirectTarget] at he
    rw [Nat.add_comm] at he
    obtain ⟨hout, rfl⟩ := Flow.reason?_jump.mp he
    exact .jumpIndirect hn hout
  | skipIfByte x byte =>
    simp only [Session.execute, Execution.halt_ofRegisters] at he
    obtain ⟨hc, hfar, rfl⟩ := h.reason?_skipIf.mp he
    exact .skip hn (eq_of_beq hc) hfar
  | skipUnlessByte x byte =>
    simp only [Session.execute, Execution.halt_ofRegisters] at he
    obtain ⟨hc, hfar, rfl⟩ := h.reason?_skipIf.mp he
    exact .skip hn (bne_iff_ne.mp hc) hfar
  | skipIfSame x y =>
    simp only [Session.execute, Execution.halt_ofRegisters] at he
    obtain ⟨hc, hfar, rfl⟩ := h.reason?_skipIf.mp he
    exact .skip hn (eq_of_beq hc) hfar
  | skipUnlessSame x y =>
    simp only [Session.execute, Execution.halt_ofRegisters] at he
    obtain ⟨hc, hfar, rfl⟩ := h.reason?_skipIf.mp he
    exact .skip hn (bne_iff_ne.mp hc) hfar
  | skipIfKey x => exact key rfl (fun _ hk => show latched = some (.key _) from of_decide_eq_true (eq_of_beq hk)) he
  | skipUnlessKey x => exact key rfl (fun hc hk => ⟨hc, of_decide_eq_false (eq_of_beq hk)⟩) he
  | waitKey x =>
    rcases latched with _ | ⟨k⟩ | _
    · cases he
    · cases he
    · cases he
      exact .cancelled hn rfl rfl
  | stop x =>
    cases he
    exact .exit hn
  | draw x y n =>
    rw [halt_draw] at he
    obtain ⟨hfar, rfl⟩ := overrun?_eq_some_iff.mp he
    exact .span hn hfar
  | decimal x =>
    rw [halt_decimal] at he
    obtain ⟨hfar, rfl⟩ := overrun?_eq_some_iff.mp he
    exact .span hn hfar
  | store x =>
    rw [halt_store] at he
    obtain ⟨hfar, rfl⟩ := overrun?_eq_some_iff.mp he
    exact .span hn hfar
  | restore x =>
    rw [halt_restore] at he
    obtain ⟨hfar, rfl⟩ := overrun?_eq_some_iff.mp he
    exact .span hn hfar
  | _ => cases he

/-- An instruction that skips jumps over the next one, whichever instruction it is. -/
theorem halt_execute_of_skips (s : Session σ) (address : UInt16) {latched : Option Keypress} {i : Instruction}
    (hs : i.skips s.registers latched) :
    (s.execute address latched i).halt = Execution.reason? (Flow.skipIf s.registers true) := by
  cases i with
  | skipIfByte x byte =>
    have hc : (s.registers.get x == byte) = true := beq_iff_eq.mpr hs
    simp only [Session.execute, Execution.halt_ofRegisters, hc]
  | skipUnlessByte x byte =>
    have hc : (s.registers.get x != byte) = true := bne_iff_ne.mpr hs
    simp only [Session.execute, Execution.halt_ofRegisters, hc]
  | skipIfSame x y =>
    have hc : (s.registers.get x == s.registers.get y) = true := beq_iff_eq.mpr hs
    simp only [Session.execute, Execution.halt_ofRegisters, hc]
  | skipUnlessSame x y =>
    have hc : (s.registers.get x != s.registers.get y) = true := bne_iff_ne.mpr hs
    simp only [Session.execute, Execution.halt_ofRegisters, hc]
  | skipIfKey x =>
    have hl : latched = some (.key (s.registers.get x)) := hs
    have hcancel : latched ≠ some .cancel := by
      rw [hl]
      intro h
      cases h
    rw [Session.execute, Execution.halt_ofGate_skip, if_neg hcancel, decide_eq_true hl]
    rfl
  | skipUnlessKey x =>
    rw [Session.execute, Execution.halt_ofGate_skip, if_neg hs.1, decide_eq_false hs.2]
    rfl
  | _ => cases hs

/-- An instruction that looks at the keypad and sees a cancel ends the session, whichever instruction it is. -/
theorem halt_execute_of_cancel (s : Session σ) (address : UInt16) {i : Instruction} (hl : i.looks = true) :
    (s.execute address (some .cancel) i).halt = some .cancelled := by
  cases i with
  | skipIfKey x => rw [Session.execute, Execution.halt_ofGate_skip, if_pos rfl]
  | skipUnlessKey x => rw [Session.execute, Execution.halt_ofGate_skip, if_pos rfl]
  | waitKey x => rfl
  | _ => cases hl

/-- An instruction whose span passes the end of memory faults there, whichever instruction it is. -/
theorem halt_execute_of_span (s : Session σ) (address : UInt16) (latched : Option Keypress) {i : Instruction}
    (h : 0x10000 < s.registers.index.toNat + i.span s.dialect) :
    (s.execute address latched i).halt = some (.fault (.outOfRange 0x10000)) := by
  have hi : s.registers.index.toNat < 0x10000 := s.registers.index.toNat_lt
  cases i with
  | draw x y n => rw [halt_draw, overrun?_eq_some_iff]; exact ⟨h, rfl⟩
  | decimal x => rw [halt_decimal, overrun?_eq_some_iff]; exact ⟨h, rfl⟩
  | store x => rw [halt_store, overrun?_eq_some_iff]; exact ⟨h, rfl⟩
  | restore x => rw [halt_restore, overrun?_eq_some_iff]; exact ⟨h, rfl⟩
  | _ => exact absurd h (Nat.not_lt.mpr (Nat.le_of_lt hi))

/-- Executing the next instruction halts for every listed reason that speaks of an instruction. -/
theorem InRange.execute_of_halts {s : Session σ} (h : s.InRange) {i : Instruction} (hn : s.Next i)
    {latched : Option Keypress} {reason : HaltReason} (hh : s.Halts latched reason) :
    (s.advance.execute s.registers.pc latched i).halt = some reason := by
  have hpc := h.toNat_pc_advance
  have hback := pc_advance_sub s
  cases hh with
  | endOfProgram he => exact absurd hn.lt (Nat.not_lt.mpr he)
  | undefinedOpcode hw hd => exact absurd hn (hw.not_next hd i)
  | stackUnderflow hm hz =>
    cases hn.unique hm
    rw [Session.execute, Execution.halt_ofFlow, Execution.reason?_eq_some_iff]
    exact ⟨_, Flow.ret_eq_error_iff.mpr ⟨hz, rfl⟩, congrArg (HaltReason.fault ∘ Fault.stackUnderflow) hback.symm⟩
  | stackOverflow hm hfull =>
    cases hn.unique hm
    rw [Session.execute, Execution.halt_ofFlow, Execution.reason?_eq_some_iff]
    exact ⟨_, Flow.call_eq_error_iff.mpr (Or.inl ⟨hfull, rfl⟩), congrArg (HaltReason.fault ∘ Fault.stackOverflow) hback.symm⟩
  | call hm hd hlow =>
    cases hn.unique hm
    rw [Session.execute, Execution.halt_ofFlow, Execution.reason?_eq_some_iff]
    exact ⟨_, Flow.call_eq_error_iff.mpr (Or.inr ⟨hd, by omega, rfl⟩), rfl⟩
  | jump hm hlow =>
    cases hn.unique hm
    rw [Session.execute, Execution.halt_ofRegisters, Flow.reason?_jump]
    exact ⟨Or.inl hlow, rfl⟩
  | jumpIndirect hm hout =>
    cases hn.unique hm
    rw [Session.execute, Execution.halt_ofRegisters, Flow.indirectTarget, Nat.add_comm, Flow.reason?_jump]
    exact ⟨hout, rfl⟩
  | skip hm hs hfar =>
    cases hn.unique hm
    rw [halt_execute_of_skips s.advance s.registers.pc hs, h.reason?_skipIf]
    exact ⟨rfl, hfar, rfl⟩
  | cancelled hm hl hc =>
    cases hn.unique hm
    subst hc
    exact halt_execute_of_cancel s.advance s.registers.pc hl
  | exit hm =>
    cases hn.unique hm
    rfl
  | span hm hfar =>
    cases hn.unique hm
    exact halt_execute_of_span s.advance s.registers.pc latched hfar

/-- A running session in range halts in its next step for exactly the listed reasons. -/
theorem InRange.step_eq_halted_iff {s : Session σ} (h : s.InRange) (hr : s.status = .running) (latched : Option Keypress)
    (reason : HaltReason) : (s.step latched).1.status = .halted reason ↔ s.Halts latched reason := by
  cases hf : s.fetch with
  | error r =>
    obtain ⟨hend, rfl⟩ := h.fetch_eq_error_iff.mp hf
    rw [step_of_fetch_error hr hf, status_halt, Status.halted.injEq]
    constructor
    · rintro rfl
      exact .endOfProgram hend
    · exact fun hh => (hh.eq_of_end hend).symm
  | ok op =>
    have hw := h.nextWord_iff.mp hf
    cases hd : Instruction.decode op with
    | none =>
      rw [step_of_decode_none hr hf hd, status_halt, Status.halted.injEq]
      constructor
      · rintro rfl
        exact .undefinedOpcode hw hd
      · exact fun hh => (hh.eq_of_undefined hw hd).symm
    | some i =>
      have hrun : (s.advance.execute s.registers.pc latched i).session.status = .running :=
        (leaves_execute s.advance s.registers.pc latched i).status.trans hr
      rw [step_of_decode hr hf hd]
      exact (Execution.status_closed_eq_halted_iff hrun).trans
        ⟨h.halts_of_execute hw hd, h.execute_of_halts ⟨op, hw, hd⟩⟩

/-- The status after a step is the one before, or halted for a listed reason, or running. -/
theorem InRange.status_step {s : Session σ} (h : s.InRange) (latched : Option Keypress) :
    (s.step latched).1.status = s.status ∨ ∃ reason, (s.step latched).1.status = .halted reason ∧ s.Halts latched reason := by
  cases hr : s.status with
  | halted reason =>
    rw [step_of_halted hr]
    exact Or.inl hr
  | running =>
    cases hs : (s.step latched).1.status with
    | running => exact Or.inl rfl
    | halted reason => exact Or.inr ⟨reason, rfl, (h.step_eq_halted_iff hr latched reason).mp hs⟩

end Session

end ChipEight
