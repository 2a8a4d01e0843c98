import ChipEight.Instruction.Decode

/-!
# What decoding promises

A word is its two bytes, the high one first. Statements about the operands of a decoded instruction: an address has twelve bits, and the
registers are those that the second and the third nibble of the word name.
-/

namespace ChipEight

theorem Opcode.toNat_ofBytes (high low : UInt8) : (Opcode.ofBytes high low).word.toNat = 256 * high.toNat + low.toNat := by
  have hhigh := high.toNat_lt
  have hlow := low.toNat_lt
  have hscale : (256 : UInt16).toNat = 256 := rfl
  rw [Opcode.ofBytes, UInt16.toNat_add, UInt16.toNat_mul, UInt8.toNat_toUInt16, UInt8.toNat_toUInt16, hscale]
  omega

theorem Opcode.toNat_high (op : Opcode) : op.high.toNat = op.word.toNat / 256 := by
  have hlt := op.word.toNat_lt
  rw [high, UInt8.toNat_ofNat']
  omega

theorem Opcode.toNat_low (op : Opcode) : op.low.toNat = op.word.toNat % 256 := by
  rw [low, UInt8.toNat_ofNat']
  omega

@[simp] theorem Opcode.high_ofBytes (high low : UInt8) : (Opcode.ofBytes high low).high = high := by
  have hlow := low.toNat_lt
  rw [← UInt8.toNat_inj, toNat_high, toNat_ofBytes]
  omega

@[simp] theorem Opcode.low_ofBytes (high low : UInt8) : (Opcode.ofBytes high low).low = low := by
  have hlow := low.toNat_lt
  rw [← UInt8.toNat_inj, toNat_low, toNat_ofBytes]
  omega

/-- The address field of a word has twelve bits. -/
theorem Opcode.nnn_lt (op : Opcode) : op.nnn.toNat < 0x1000 := by
  have h : op.word.toNat % 4096 < 4096 := Nat.mod_lt _ (by decide)
  rw [Opcode.nnn, UInt16.toNat_ofNat_of_lt' (Nat.lt_trans h (by decide))]
  exact h

namespace Instruction

/-- A system instruction names no address. -/
theorem target?_decodeSystem {op : Opcode} {i : Instruction} (h : decodeSystem op = some i) : i.target? = none := by
  unfold decodeSystem at h
  split at h <;> try (cases h; rfl)
  split at h
  · cases h
    rfl
  · cases h

/-- A key instruction names no address. -/
theorem target?_decodeKey {x : Register} {b : UInt8} {i : Instruction} (h : decodeKey x b = some i) :
    i.target? = none := by
  unfold decodeKey at h
  split at h <;> cases h <;> rfl

/-- An instruction of group F names no address. -/
theorem target?_decodeMisc {x : Register} {b : UInt8} {i : Instruction} (h : decodeMisc x b = some i) :
    i.target? = none := by
  unfold decodeMisc at h
  split at h <;> cases h <;> rfl

/-- The address that a decoded instruction names is the address field of its word. -/
theorem target?_of_decode {op : Opcode} {i : Instruction} {t : UInt16} (h : decode op = some i)
    (ht : i.target? = some t) : t = op.nnn := by
  unfold decode at h
  split at h
  case h_1 => simp [target?_decodeSystem h] at ht
  case h_9 =>
    obtain ⟨o, -, rfl⟩ := Option.map_eq_some_iff.mp h
    cases ht
  case h_15 => simp [target?_decodeKey h] at ht
  case h_16 => simp [target?_decodeMisc h] at ht
  case h_17 => cases h
  all_goals
    cases h
    cases ht <;> rfl

/-- No decoded instruction names an address above the region that can be executed. -/
theorem target_lt_of_decode {op : Opcode} {i : Instruction} {t : UInt16} (h : decode op = some i)
    (ht : i.target? = some t) : t.toNat < 0x1000 := by
  rw [target?_of_decode h ht]
  exact op.nnn_lt

/-- The first register that an instruction reads or writes, if it is one that names any. -/
def x? : Instruction → Option Register
  | .skipIfByte x _ | .skipUnlessByte x _ | .skipIfSame x _ | .skipUnlessSame x _ | .setByte x _ | .addByte x _
  | .operate _ x _ | .random x _ | .draw x _ _ | .skipIfKey x | .skipUnlessKey x | .stop x | .readDelay x | .waitKey x
  | .setDelay x | .setPitch x | .setSound x | .addIndex x | .glyph x | .decimal x | .store x | .restore x => some x
  | _ => none

/-- The second register that an instruction reads, if it is one that names two. -/
def y? : Instruction → Option Register
  | .skipIfSame _ y | .skipUnlessSame _ y | .operate _ _ y | .draw _ y _ => some y
  | _ => none

/-- A system instruction names no register. -/
theorem x?_decodeSystem {op : Opcode} {i : Instruction} (h : decodeSystem op = some i) : i.x? = none ∧ i.y? = none := by
  unfold decodeSystem at h
  split at h <;> try (cases h; exact ⟨rfl, rfl⟩)
  split at h
  · cases h
    exact ⟨rfl, rfl⟩
  · cases h

/-- A key instruction names the register it was given. -/
theorem x?_decodeKey {x : Register} {b : UInt8} {i : Instruction} (h : decodeKey x b = some i) :
    i.x? = some x ∧ i.y? = none := by
  unfold decodeKey at h
  split at h <;> cases h <;> exact ⟨rfl, rfl⟩

/-- An instruction of group F names the register it was given, or none that it reads or writes. -/
theorem x?_decodeMisc {x : Register} {b : UInt8} {i : Instruction} (h : decodeMisc x b = some i) :
    (i.x? = some x ∨ i.x? = none) ∧ i.y? = none := by
  unfold decodeMisc at h
  split at h <;> cases h <;> first | exact ⟨Or.inl rfl, rfl⟩ | exact ⟨Or.inr rfl, rfl⟩

/-- The registers that a decoded instruction names are the second and the third nibble of its word. -/
theorem registers_of_decode {op : Opcode} {i : Instruction} (h : decode op = some i) :
    (∀ x, i.x? = some x → x = op.x) ∧ ∀ y, i.y? = some y → y = op.y := by
  unfold decode at h
  split at h
  case h_1 => simp [x?_decodeSystem h]
  case h_9 =>
    obtain ⟨o, -, rfl⟩ := Option.map_eq_some_iff.mp h
    exact ⟨fun _ hx => (Option.some.inj hx).symm, fun _ hy => (Option.some.inj hy).symm⟩
  case h_15 => simp [x?_decodeKey h]
  case h_16 =>
    obtain ⟨hx | hx, hy⟩ := x?_decodeMisc h
    · simp [hx, hy]
    · simp [hx, hy]
  case h_17 => cases h
  all_goals
    cases h
    exact ⟨fun _ hx => by cases hx <;> rfl, fun _ hy => by cases hy <;> rfl⟩

end Instruction

end ChipEight
