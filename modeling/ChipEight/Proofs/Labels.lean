import ChipEight.Proofs.Lemmas.Listing

/-!
# Labels

Every address that an instruction of a program points at is a label. A word line carries its label exactly when its address is one, and
an instruction with a target is written with the label of the target in place of the number, in one place and with everything else
unchanged, as if the number had been looked for and exchanged (`Listing.labels_mark_words`). The line of a last odd byte carries no
label, even when its address is one (`Listing.not_forall_target_marked`).
-/

namespace ChipEight.Listing

/-! ## The label of a line -/

/-- A word carries its label if its address is one. -/
theorem mark_word (program : List UInt8) (base address : UInt16) (opcode : Opcode) :
    (PointsAt program address →
      (Text.column 8 (Line.mark (targets (lines base program)) ⟨address, .word opcode⟩)).toList =
        (label address).toList ++ [':', ' ']) ∧
    (¬PointsAt program address →
      (Text.column 8 (Line.mark (targets (lines base program)) ⟨address, .word opcode⟩)).toList = List.replicate 8 ' ') := by
  have hpoints : (targets (lines base program)).contains address = true ↔ PointsAt program address := contains_targets_lines
  rw [← hpoints, Line.mark]
  constructor
  · intro h
    rw [if_pos h, toList_column_label]
  · intro h
    rw [if_neg h, toList_column_blank]

/-- A listing marks the targets of its program, for every program and every address. There is a line for each word and one for a last
odd byte. A word line starts with the label of its address and a colon if an instruction of the program points there, and with blanks
otherwise; the line of a last odd byte starts with blanks. The text of an instruction with a target is its own text with the label of the
target exchanged for the number, and an instruction of the program does point there. -/
theorem labels_mark_words (program : List UInt8) (base : UInt16) :
    (printed (listing program base)).length = (program.length + 1) / 2 ∧
    ∀ i line, (printed (listing program base))[i]? = some line →
      (∀ high low, program[2 * i]? = some high → program[2 * i + 1]? = some low →
        (PointsAt program (addressAt base i) → line.take 8 = (label (addressAt base i)).toList ++ [':', ' ']) ∧
        (¬PointsAt program (addressAt base i) → line.take 8 = List.replicate 8 ' ') ∧
        ∀ instruction t, Instruction.decode (.ofBytes high low) = some instruction → instruction.target? = some t →
          PointsAt program t ∧
            Exchanged (Instruction.addressText t).toList (label t).toList instruction.text.toList (line.drop 20)) ∧
      (∀ last, program[2 * i]? = some last → 2 * i + 1 = program.length → line.take 8 = List.replicate 8 ' ') := by
  refine ⟨length_printed program base, fun i line hline => ?_⟩
  rw [getElem?_printed] at hline
  obtain ⟨content, hcontent, rfl⟩ := Option.map_eq_some_iff.mp hline
  obtain ⟨htake, -, -, -, hdrop⟩ := columns_text (targets (lines base program)) ⟨addressAt base i, content⟩
  constructor
  · intro high low hhigh hlow
    rw [contentAt?_word hhigh hlow] at hcontent
    cases hcontent
    obtain ⟨hmarked, hblank⟩ := mark_word program base (addressAt base i) (.ofBytes high low)
    refine ⟨fun hp => htake.trans (hmarked hp), fun hp => htake.trans (hblank hp), fun instruction t hd ht => ⟨?_, ?_⟩⟩
    · exact ⟨i, high, low, instruction, hhigh, hlow, hd, ht⟩
    · rw [hdrop, Content.text, wordText_of_decode hd]
      exact exchanged_textWith ht
  · intro last hlast hend
    rw [contentAt?_byte hlast hend] at hcontent
    cases hcontent
    exact htake.trans toList_column_blank

/-- A program that jumps to its second word, which jumps to itself. -/
def spinning : List UInt8 := [0x12, 0x02, 0x12, 0x02]

theorem spinning_pointsAt : PointsAt spinning (addressAt 0x200 1) := ⟨0, _, _, _, rfl, rfl, rfl, rfl⟩

/-- The second line carries its label and shows it once more, in place of the number. -/
theorem labels_mark_words_spinning :
    (printed (listing spinning 0x200))[1]? = some "L_0202: 0202  1202  jp   L_0202".toList ∧
      Instruction.decode (.ofBytes 0x12 0x02) = some (.jump 0x202) ∧ (Instruction.jump 0x202).text = "jp   0x202" ∧
      "L_0202: 0202  1202  jp   L_0202".toList.take 8 = "L_0202: ".toList ∧
      Exchanged "0x202".toList "L_0202".toList "jp   0x202".toList "jp   L_0202".toList := by
  have hline : (printed (listing spinning 0x200))[1]? = some "L_0202: 0202  1202  jp   L_0202".toList := by decide +kernel
  have hd : Instruction.decode (.ofBytes 0x12 0x02) = some (.jump 0x202) := rfl
  have htext : (Instruction.jump 0x202).text = "jp   0x202" := by decide +kernel
  have hnumber : Instruction.addressText 0x202 = "0x202" := by decide +kernel
  have hlabel : label 0x202 = "L_0202" := by decide +kernel
  obtain ⟨hword, -⟩ := (labels_mark_words spinning 0x200).2 1 _ hline
  obtain ⟨hmarked, -, hshown⟩ := hword _ _ rfl rfl
  obtain ⟨-, hexchanged⟩ := hshown _ _ hd rfl
  rw [htext, hnumber, hlabel] at hexchanged
  refine ⟨hline, hd, htext, ?_, hexchanged⟩
  have haddress : addressAt 0x200 1 = 0x202 := rfl
  rw [hmarked spinning_pointsAt, haddress, hlabel]
  decide

/-- A program whose only word points at the odd byte behind it. -/
def pointingAtEnd : List UInt8 := [0x12, 0x02, 0x60]

/-- It is not so that every line at a target carries the label: that of a last odd byte does not. -/
theorem not_forall_target_marked :
    ¬∀ (program : List UInt8) (base : UInt16) (i : Nat) (line : List Char),
      (printed (listing program base))[i]? = some line → PointsAt program (addressAt base i) →
        (label (addressAt base i)).toList ++ [':'] <+: line := by
  intro hall
  have hline : (printed (listing pointingAtEnd 0x200))[1]? = some "        0202  60    .byte 0x60".toList := by decide +kernel
  have hpoints : PointsAt pointingAtEnd (addressAt 0x200 1) := ⟨0, _, _, _, rfl, rfl, rfl, rfl⟩
  have hmarked := hall pointingAtEnd 0x200 1 _ hline hpoints
  revert hmarked
  decide +kernel

end ChipEight.Listing
