import ChipEight.Proofs.Lemmas.Halts

/-!
# What an instruction writes

`Session.Leaves` speaks of whole parts of a session. Here: which of the registers an instruction may change
(`Instruction.writes`), whether it may move the index (`Instruction.movesIndex`), which cells of memory it may change, and how
often it looks at the keypad. All of it holds as well when the instruction ends the session.
-/

namespace ChipEight

/-- Whether an operation writes VF beside its result. Of the shifts only one in place does. -/
def Operation.setsFlag (d : Dialect) : Operation → Bool
  | .add | .subtract | .reverseSubtract => true
  | .shiftRight | .shiftLeft => d.shiftsInPlace
  | _ => false

namespace Instruction

/-- That an instruction may change a register: its destination, a register of the run it restores, or VF as the flag. -/
def writes (d : Dialect) (r : Register) : Instruction → Prop
  | .setByte x _ | .random x _ | .readDelay x | .waitKey x => r = x
  | .addByte x _ => r = x ∨ r = flagRegister
  | .operate op x _ => r = x ∨ op.setsFlag d = true ∧ r = flagRegister
  | .draw _ _ _ => r = flagRegister
  | .restore x => r ≤ x
  | _ => False

/-- Whether an instruction may move the index. -/
def movesIndex (d : Dialect) : Instruction → Bool
  | .setIndex _ | .addIndex _ | .glyph _ => true
  | .decimal _ | .store _ | .restore _ => !d.keepsIndex
  | _ => false

/-- Whether an instruction does nothing. -/
def idle : Instruction → Bool
  | .nop | .extension _ => true
  | _ => false

end Instruction

/-! ## Registers -/

namespace Registers

theorem get_set_of_ne (r : Registers) (value : UInt8) {x y : Register} (h : y ≠ x) : (r.set x value).get y = r.get y := by
  rw [get_set, if_neg (Ne.symm h)]

/-- An operation leaves alone all registers but its destination and, if it writes one, the flag. -/
theorem get_operate_of_ne (r : Registers) {d : Dialect} {op : Operation} {x z : Register} (y : Register) (hx : z ≠ x)
    (hflag : op.setsFlag d = true → z ≠ flagRegister) : (r.operate d op x y).get z = r.get z := by
  have hset : ∀ value, (r.set x value).get z = r.get z := fun value => get_set_of_ne r value hx
  cases op with
  | copy => exact hset _
  | or => exact hset _
  | and => exact hset _
  | xor => exact hset _
  | add => exact (get_setFlag_of_ne _ _ (hflag rfl)).trans (hset _)
  | subtract => exact (get_setFlag_of_ne _ _ (hflag rfl)).trans (hset _)
  | reverseSubtract => exact (get_setFlag_of_ne _ _ (hflag rfl)).trans (hset _)
  | shiftRight =>
    simp only [operate, shiftRight]
    split
    · rename_i hd
      exact (get_set_of_ne _ _ (hflag hd)).trans (hset _)
    · exact hset _
  | shiftLeft =>
    simp only [operate, shiftLeft]
    split
    · rename_i hd
      exact (get_set_of_ne _ _ (hflag hd)).trans (hset _)
    · exact hset _

/-- Operations do not move the index. -/
@[simp] theorem index_operate (r : Registers) (d : Dialect) (op : Operation) (x y : Register) :
    (r.operate d op x y).index = r.index := by
  cases op with
  | shiftRight => simp only [operate, shiftRight]; split <;> rfl
  | shiftLeft => simp only [operate, shiftLeft]; split <;> rfl
  | _ => rfl

/-- What registers have kept when an instruction was executed: every register that the instruction does not write, and the index
if the instruction does not move it. -/
structure Keeps (d : Dialect) (i : Instruction) (r t : Registers) : Prop where
  get : ∀ x, ¬i.writes d x → t.get x = r.get x
  index : i.movesIndex d = false → t.index = r.index

section

variable {d : Dialect} {i : Instruction} {r : Registers}

theorem Keeps.setPc (pc : UInt16) : Keeps d i r (r.setPc pc) := ⟨fun _ _ => rfl, fun _ => rfl⟩

theorem Keeps.refl : Keeps d i r r := Keeps.setPc r.pc

theorem Keeps.set {x : Register} (value : UInt8) (hx : i.writes d x) : Keeps d i r (r.set x value) :=
  ⟨fun _ hy => get_set_of_ne r value fun e => hy (e ▸ hx), fun _ => rfl⟩

theorem Keeps.setIndex (index : UInt16) (hi : i.movesIndex d = true) : Keeps d i r (r.setIndex index) :=
  ⟨fun _ _ => rfl, fun h => absurd (hi.symm.trans h) (by decide)⟩

theorem Keeps.trans {t u : Registers} (h : Keeps d i r t) (h' : Keeps d i t u) : Keeps d i r u :=
  ⟨fun x hx => (h'.get x hx).trans (h.get x hx), fun hi => (h'.index hi).trans (h.index hi)⟩

/-- A run of bytes moves the index only if the dialect lets it. -/
theorem Keeps.advance (count : Nat) (hi : i.movesIndex d = !d.keepsIndex) : Keeps d i r (Transfer.advance d r count) := by
  unfold Transfer.advance
  split
  · exact Keeps.refl
  · rename_i hk
    rw [Bool.not_eq_true] at hk
    exact Keeps.setIndex _ (by rw [hi, hk]; rfl)

theorem Keeps.ofJump {address : Nat} {t : Registers} (h : Flow.jump r address = .ok t) : Keeps d i r t := by
  obtain ⟨rfl, -, -⟩ := Flow.of_jump_eq_ok h
  exact Keeps.setPc _

theorem Keeps.ofSkip {condition : Bool} {t : Registers} (h : Flow.skipIf r condition = .ok t) : Keeps d i r t := by
  rcases Flow.of_skipIf_eq_ok h with rfl | ⟨address, hj⟩
  · exact Keeps.refl
  · exact Keeps.ofJump hj

/-- A run of registers writes those up to the last one. -/
theorem Keeps.restoreAll {x : Register} (m : Memory) (address : Nat) :
    Keeps d (.restore x) r (Transfer.restoreAll m r address (Transfer.registersFrom 0 x)).1 := by
  refine ⟨fun y hy => Transfer.get_restoreAll_of_not_mem m r address fun hm => hy ?_, fun _ => ?_⟩
  · exact (Transfer.mem_registersFrom.mp hm).2
  · exact (Transfer.frame_restoreAll m r address _).2

end

end Registers

namespace Session

variable {σ : Type} {s : Session σ} {d : Dialect} {i : Instruction}

theorem keeps_ofRegisters {effects : List Effect} {e : Except Fault Registers}
    (h : ∀ t, e = .ok t → Registers.Keeps d i s.registers t) :
    Registers.Keeps d i s.registers (Execution.ofRegisters s effects e).session.registers := by
  cases e with
  | error f => exact Registers.Keeps.refl
  | ok t => exact h t rfl

theorem keeps_ofFlow {effects : List Effect} {e : Except Fault (Registers × CallStack)}
    (h : ∀ t k, e = .ok (t, k) → Registers.Keeps d i s.registers t) :
    Registers.Keeps d i s.registers (Execution.ofFlow s effects e).session.registers := by
  cases e with
  | error f => exact Registers.Keeps.refl
  | ok p => exact h p.1 p.2 rfl

theorem keeps_ofGateSkip (latched : Option Keypress) (expected : UInt8) (pressed : Bool) :
    Registers.Keeps d i s.registers
      (Execution.ofGate s (Gate.skip s.registers latched expected pressed)).session.registers := by
  unfold Gate.skip
  split
  · exact Registers.Keeps.refl
  · cases h : Flow.skipIf s.registers (decide (latched = some (.key expected)) == pressed) with
    | error f => exact Registers.Keeps.refl
    | ok t => exact Registers.Keeps.ofSkip h

variable [Surface σ]

/-- Executing an instruction changes no register that it does not write, and does not move the index unless it may. -/
theorem keeps_execute (s : Session σ) (address : UInt16) (latched : Option Keypress) (i : Instruction) :
    Registers.Keeps s.dialect i s.registers (s.execute address latched i).session.registers := by
  cases i with
  | ret =>
    refine keeps_ofFlow fun t k h => ?_
    obtain ⟨frame, rfl, -⟩ := Flow.of_ret_eq_ok h
    exact .setPc frame
  | call target =>
    refine keeps_ofFlow fun t k h => ?_
    obtain ⟨rfl, -, -⟩ := Flow.of_call_eq_ok h
    exact .setPc target
  | restart => exact .setPc _
  | jump target => exact keeps_ofRegisters fun t h => .ofJump h
  | jumpIndirect target => exact keeps_ofRegisters fun t h => .ofJump h
  | skipIfByte x byte => exact keeps_ofRegisters fun t h => .ofSkip h
  | skipUnlessByte x byte => exact keeps_ofRegisters fun t h => .ofSkip h
  | skipIfSame x y => exact keeps_ofRegisters fun t h => .ofSkip h
  | skipUnlessSame x y => exact keeps_ofRegisters fun t h => .ofSkip h
  | skipIfKey x => exact keeps_ofGateSkip latched _ true
  | skipUnlessKey x => exact keeps_ofGateSkip latched _ false
  | waitKey x =>
    rcases latched with _ | ⟨k⟩ | _
    · exact .setPc _
    · exact .set k rfl
    · exact .refl
  | setByte x byte => exact .set byte rfl
  | addByte x byte =>
    have hx : (Instruction.addByte x byte).writes s.dialect x := Or.inl rfl
    exact (Registers.Keeps.set _ hx).trans (.set _ (Or.inr rfl))
  | operate op x y =>
    refine ⟨fun z hz => ?_, fun _ => Registers.index_operate _ _ _ _ _⟩
    exact Registers.get_operate_of_ne _ y (fun e => hz (Or.inl e)) fun hf e => hz (Or.inr ⟨hf, e⟩)
  | setIndex target => exact .setIndex target rfl
  | addIndex x => exact .setIndex _ rfl
  | glyph x => exact .setIndex _ rfl
  | random x mask => exact .set _ rfl
  | readDelay x => exact .set _ rfl
  | draw x y n =>
    have hcleared : Registers.Keeps s.dialect (.draw x y n) s.registers (s.registers.setFlag false) := .set _ rfl
    simp only [execute, Sprite.draw]
    split
    · rename_i r surface h
      split at h
      · cases h
      · cases h
        exact hcleared.trans (.set _ rfl)
    · rename_i r f h
      split at h
      · cases h
        exact hcleared
      · cases h
  | decimal x =>
    simp only [execute, Transfer.storeDecimal, Memory.write_eq]
    split
    · rename_i m r h
      split at h
      · cases h
        exact .advance 3 rfl
      · cases h
    · exact .refl
  | store x =>
    simp only [execute, Transfer.store]
    cases hs : Transfer.storeAll s.registers s.memory s.registers.index.toNat (Transfer.registersFrom 0 x) with
    | mk m f =>
      cases f with
      | none => exact .advance _ rfl
      | some f => exact .refl
  | restore x =>
    have hrun := Registers.Keeps.restoreAll (d := s.dialect) (r := s.registers) (x := x) s.memory s.registers.index.toNat
    simp only [execute, Transfer.restore]
    cases hs : Transfer.restoreAll s.memory s.registers s.registers.index.toNat (Transfer.registersFrom 0 x) with
    | mk r f =>
      rw [hs] at hrun
      cases f with
      | none => exact hrun.trans (.advance _ rfl)
      | some f => exact hrun
  | _ => exact .refl

/-! ## Memory -/

/-- Executing an instruction changes no cell of memory outside the span it touches at the index, and none at all unless it owns
the memory. -/
theorem peek_execute (s : Session σ) (address : UInt16) (latched : Option Keypress) (i : Instruction) {a : Nat}
    (h : i.owns .memory = true → a < s.registers.index.toNat ∨ s.registers.index.toNat + i.span s.dialect ≤ a) :
    (s.execute address latched i).session.memory.peek a = s.memory.peek a := by
  cases i with
  | decimal x =>
    simp only [execute, Transfer.storeDecimal, Memory.write_eq]
    split
    · rename_i m r hm
      split at hm
      · cases hm
        exact Memory.peek_pokeAll_of_outside s.memory 3 (Nat.le_refl 3) (h rfl)
      · cases hm
    · rfl
  | store x =>
    have hlen : (Transfer.registersFrom 0 x).length = x.val + 1 := Transfer.length_registersFrom 0 x
    simp only [execute, Transfer.store_eq _ _ _ (Fin.zero_le x)]
    split
    · rename_i m r hm
      split at hm
      · cases hm
        exact Memory.peek_pokeAll_of_outside s.memory (x.val + 1) (Nat.le_of_eq (by rw [List.length_map, hlen])) (h rfl)
      · cases hm
    · rename_i m f hm
      split at hm
      · cases hm
      · cases hm
        exact Memory.peek_pokeAll_of_outside s.memory (x.val + 1)
          (by rw [List.length_map, List.length_take, hlen]; exact Nat.min_le_right _ _) (h rfl)
  | _ => rw [(leaves_execute s address latched _).memory rfl]

/-! ## The keypad -/

/-- The three instructions that look at the keypad do so once, and all others do not. -/
theorem count_keyLook_execute (s : Session σ) (address : UInt16) (latched : Option Keypress) (i : Instruction) :
    (s.execute address latched i).effects.count .keyLook = if i.looks then 1 else 0 := by
  rw [effects_execute]
  cases i with
  | setPitch x =>
    show ((Tone.note? (s.registers.get x)).toList.map _).count _ = 0
    cases Tone.note? (s.registers.get x) <;> rfl
  | _ => rfl

end Session

end ChipEight
