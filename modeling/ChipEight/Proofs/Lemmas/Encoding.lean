import ChipEight.Proofs.Lemmas.Decode

/-!
# From instructions back to words

A word that is an instruction can be put together again from it (`Instruction.encode_of_decode`): the instruction fixes every bit, but
for the lowest nibble of the two skips that compare registers, which no instruction remembers.
-/

namespace ChipEight

namespace Opcode

/-! ## Fields as numbers -/

theorem val_group (op : Opcode) : op.group.val = op.word.toNat / 4096 := by
  have hlt := op.word.toNat_lt
  show op.word.toNat / 4096 % 16 = _
  omega

theorem val_x (op : Opcode) : op.x.val = op.word.toNat / 256 % 16 := rfl

theorem val_y (op : Opcode) : op.y.val = op.word.toNat / 16 % 16 := rfl

theorem toNat_n (op : Opcode) : op.n.toNat = op.word.toNat % 16 := by
  rw [n, UInt8.toNat_ofNat']
  omega

theorem toNat_nnn (op : Opcode) : op.nnn.toNat = op.word.toNat % 4096 := by
  rw [nnn, UInt16.toNat_ofNat']
  omega

/-- A word that is put together from four nibbles has the first three as its fields. -/
theorem fields_of_word {op : Opcode} {group : Fin 16} {x y : Register}
    (h : op.word.toNat = 4096 * group.val + 256 * x.val + 16 * y.val + op.n.toNat) :
    op.group = group ∧ op.x = x ∧ op.y = y := by
  have hgroup := op.val_group
  have hx := op.val_x
  have hy := op.val_y
  have hn := op.toNat_n
  exact ⟨Fin.ext (by omega), Fin.ext (by omega), Fin.ext (by omega)⟩

theorem ext_toNat {op op' : Opcode} (h : op.word.toNat = op'.word.toNat) : op = op' := by
  obtain ⟨w⟩ := op
  obtain ⟨w'⟩ := op'
  exact congrArg mk (UInt16.toNat_inj.mp h)

end Opcode

/-- The number of an operation. -/
def Operation.nibble : Operation → Nat
  | .copy => 0x0
  | .or => 0x1
  | .and => 0x2
  | .xor => 0x3
  | .add => 0x4
  | .subtract => 0x5
  | .shiftRight => 0x6
  | .reverseSubtract => 0x7
  | .shiftLeft => 0xe

theorem Operation.nibble_of_ofNibble? {n : UInt8} {op : Operation} (h : ofNibble? n = some op) : op.nibble = n.toNat := by
  unfold ofNibble? at h
  split at h <;> cases h <;> rfl

/-- The word of an extension. -/
def Extension.encode : Extension → Nat
  | .scrollDown n => 0x00c0 + n.toNat
  | .scrollRight => 0x00fb
  | .scrollLeft => 0x00fc
  | .lowResolution => 0x00fe
  | .highResolution => 0x00ff
  | .bigGlyph x => 0xf000 + 256 * x.val + 0x30
  | .serialOut x => 0xf000 + 256 * x.val + 0x70
  | .serialIn x => 0xf000 + 256 * x.val + 0x71
  | .setBaud x => 0xf000 + 256 * x.val + 0x72
  | .saveFlags x => 0xf000 + 256 * x.val + 0x75
  | .loadFlags x => 0xf000 + 256 * x.val + 0x85

namespace Instruction

/-- The word of an instruction, with a zero for a nibble that does not count. -/
def encode : Instruction → Nat
  | .nop => 0x0000
  | .clear => 0x00e0
  | .ret => 0x00ee
  | .restart => 0x00fd
  | .jump target => 0x1000 + target.toNat
  | .call target => 0x2000 + target.toNat
  | .skipIfByte x byte => 0x3000 + 256 * x.val + byte.toNat
  | .skipUnlessByte x byte => 0x4000 + 256 * x.val + byte.toNat
  | .skipIfSame x y => 0x5000 + 256 * x.val + 16 * y.val
  | .setByte x byte => 0x6000 + 256 * x.val + byte.toNat
  | .addByte x byte => 0x7000 + 256 * x.val + byte.toNat
  | .operate op x y => 0x8000 + 256 * x.val + 16 * y.val + op.nibble
  | .skipUnlessSame x y => 0x9000 + 256 * x.val + 16 * y.val
  | .setIndex target => 0xa000 + target.toNat
  | .jumpIndirect target => 0xb000 + target.toNat
  | .random x mask => 0xc000 + 256 * x.val + mask.toNat
  | .draw x y n => 0xd000 + 256 * x.val + 16 * y.val + n.toNat
  | .skipIfKey x => 0xe000 + 256 * x.val + 0x9e
  | .skipUnlessKey x => 0xe000 + 256 * x.val + 0xa1
  | .stop x => 0xf000 + 256 * x.val + 0x00
  | .readDelay x => 0xf000 + 256 * x.val + 0x07
  | .waitKey x => 0xf000 + 256 * x.val + 0x0a
  | .setDelay x => 0xf000 + 256 * x.val + 0x15
  | .setPitch x => 0xf000 + 256 * x.val + 0x17
  | .setSound x => 0xf000 + 256 * x.val + 0x18
  | .addIndex x => 0xf000 + 256 * x.val + 0x1e
  | .glyph x => 0xf000 + 256 * x.val + 0x29
  | .decimal x => 0xf000 + 256 * x.val + 0x33
  | .store x => 0xf000 + 256 * x.val + 0x55
  | .restore x => 0xf000 + 256 * x.val + 0x65
  | .extension e => e.encode

/-- Whether the lowest nibble of the word of an instruction does not count. -/
def ignoresNibble : Instruction → Bool
  | .skipIfSame _ _ | .skipUnlessSame _ _ => true
  | _ => false

/-! ## Words of decoded instructions -/

theorem encode_decodeSystem {op : Opcode} {i : Instruction} (h : decodeSystem op = some i) :
    i.encode = op.word.toNat ∧ i.ignoresNibble = false := by
  unfold decodeSystem at h
  split at h
  case h_9 =>
    split at h
    · rename_i hscroll
      cases h
      have hn := op.toNat_n
      refine ⟨?_, rfl⟩
      show 0x00c0 + op.n.toNat = op.word.toNat
      omega
    · cases h
  all_goals
    rename_i hword
    cases h
    rw [hword]
    exact ⟨rfl, rfl⟩

theorem encode_decodeKey {x : Register} {b : UInt8} {i : Instruction} (h : decodeKey x b = some i) :
    i.encode = 0xe000 + 256 * x.val + b.toNat ∧ i.ignoresNibble = false := by
  unfold decodeKey at h
  split at h <;> cases h <;> exact ⟨rfl, rfl⟩

theorem encode_decodeMisc {x : Register} {b : UInt8} {i : Instruction} (h : decodeMisc x b = some i) :
    i.encode = 0xf000 + 256 * x.val + b.toNat ∧ i.ignoresNibble = false := by
  unfold decodeMisc at h
  split at h <;> cases h <;> exact ⟨rfl, rfl⟩

/-- A word that is an instruction is the word of that instruction, with its own lowest nibble if that does not count. -/
theorem encode_of_decode {op : Opcode} {i : Instruction} (h : decode op = some i) :
    op.word.toNat = i.encode + if i.ignoresNibble then op.n.toNat else 0 := by
  have hgroup := op.val_group
  have hx := op.val_x
  have hy := op.val_y
  have hn := op.toNat_n
  have hlow := op.toNat_low
  have hnnn := op.toNat_nnn
  -- groups 0, 8, e and f are taken apart further, each by a function of its own
  unfold decode at h
  split at h
  case h_1 =>
    obtain ⟨hword, hcounts⟩ := encode_decodeSystem h
    simp [hword, hcounts]
  case h_9 hg =>
    obtain ⟨o, ho, rfl⟩ := Option.map_eq_some_iff.mp h
    have hnibble := Operation.nibble_of_ofNibble? ho
    simp only [encode, ignoresNibble, Bool.false_eq_true, if_false]
    omega
  case h_15 hg =>
    obtain ⟨hword, hcounts⟩ := encode_decodeKey h
    rw [hword, hcounts, if_neg Bool.false_ne_true]
    omega
  case h_16 hg =>
    obtain ⟨hword, hcounts⟩ := encode_decodeMisc h
    rw [hword, hcounts, if_neg Bool.false_ne_true]
    omega
  case h_17 => cases h
  all_goals
    cases h
    simp only [encode, ignoresNibble, Bool.false_eq_true, if_false, if_true]
    omega

/-! ## Words of one instruction -/

/-- The words of group 5 are those of one skip, whatever their lowest nibble is. -/
theorem decode_eq_skipIfSame_iff {op : Opcode} {x y : Register} :
    decode op = some (.skipIfSame x y) ↔ op.group = 5 ∧ op.x = x ∧ op.y = y := by
  constructor
  · intro h
    exact Opcode.fields_of_word (encode_of_decode h)
  · rintro ⟨hgroup, rfl, rfl⟩
    rw [decode, hgroup]
    rfl

/-- The words of group 9 are those of the other. -/
theorem decode_eq_skipUnlessSame_iff {op : Opcode} {x y : Register} :
    decode op = some (.skipUnlessSame x y) ↔ op.group = 9 ∧ op.x = x ∧ op.y = y := by
  constructor
  · intro h
    exact Opcode.fields_of_word (encode_of_decode h)
  · rintro ⟨hgroup, rfl, rfl⟩
    rw [decode, hgroup]
    rfl

/-- Two words are the same instruction if they are the same word, or both in group 5 or both in group 9 and naming the same registers. -/
theorem decode_eq_decode_iff {op op' : Opcode} {i i' : Instruction} (h : decode op = some i) (h' : decode op' = some i') :
    i = i' ↔ op = op' ∨ op.group = op'.group ∧ (op.group = 5 ∨ op.group = 9) ∧ op.x = op'.x ∧ op.y = op'.y := by
  constructor
  · rintro rfl
    cases hi : i.ignoresNibble with
    | false =>
      have hword := encode_of_decode h
      have hword' := encode_of_decode h'
      rw [hi, if_neg Bool.false_ne_true] at hword hword'
      exact Or.inl (Opcode.ext_toNat (hword.trans hword'.symm))
    | true =>
      right
      cases i with
      | skipIfSame x y =>
        obtain ⟨hgroup, rfl, rfl⟩ := decode_eq_skipIfSame_iff.mp h
        obtain ⟨hgroup', hx, hy⟩ := decode_eq_skipIfSame_iff.mp h'
        exact ⟨hgroup.trans hgroup'.symm, Or.inl hgroup, hx.symm, hy.symm⟩
      | skipUnlessSame x y =>
        obtain ⟨hgroup, rfl, rfl⟩ := decode_eq_skipUnlessSame_iff.mp h
        obtain ⟨hgroup', hx, hy⟩ := decode_eq_skipUnlessSame_iff.mp h'
        exact ⟨hgroup.trans hgroup'.symm, Or.inr hgroup, hx.symm, hy.symm⟩
      | _ => cases hi
  · rintro (rfl | ⟨hgroup, hskip, hx, hy⟩)
    · exact Option.some.inj (h.symm.trans h')
    · rcases hskip with hfive | hnine
      · rw [decode_eq_skipIfSame_iff.mpr ⟨hfive, hx, hy⟩] at h
        rw [decode_eq_skipIfSame_iff.mpr ⟨hgroup.symm.trans hfive, rfl, rfl⟩] at h'
        exact Option.some.inj (h.symm.trans h')
      · rw [decode_eq_skipUnlessSame_iff.mpr ⟨hnine, hx, hy⟩] at h
        rw [decode_eq_skipUnlessSame_iff.mpr ⟨hgroup.symm.trans hnine, rfl, rfl⟩] at h'
        exact Option.some.inj (h.symm.trans h')

end Instruction

end ChipEight
