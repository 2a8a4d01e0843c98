import ChipEight.Proofs.Lemmas.Encoding
import ChipEight.Proofs.Lemmas.Mnemonic

/-!
# Reading instructions

An instruction is read back from its text (`Instruction.read_text`): the name stands in the first five columns, the operands behind it
between commas, and which instruction it is follows from the name and the kinds of the operands, although a dozen instructions are called
`ld`. So no two instructions are written alike, and two words only if they are the same instruction
(`Instruction.text_tells_apart`).
-/

namespace ChipEight

/-! ## Enumerations -/

/-- A part of the characters of an enumeration is an enumeration of the parts of its members. -/
theorem Text.filter_intercalate (p : Char → Bool) (separator : List Char) (parts : List (List Char)) :
    (separator.intercalate parts).filter p = (separator.filter p).intercalate (parts.map (List.filter p)) := by
  induction parts with
  | nil => rfl
  | cons first rest ih =>
    cases rest with
    | nil => simp only [List.intercalate_singleton, List.map_cons, List.map_nil]
    | cons second rest =>
      rw [List.intercalate_cons_cons, List.filter_append, List.filter_append, ih]
      exact List.intercalate_cons_cons.symm

/-! ## Operands -/

namespace Operand

/-- The operand of a text. The text of a number does not say how large it may be, so every number is read as an address. -/
def read : List Char → Option Operand
  | 'v' :: digits => if h : Text.ofHexDigits digits < 16 then some (.register ⟨Text.ofHexDigits digits, h⟩) else none
  | '0' :: 'x' :: digits => some (.address (UInt16.ofNat (Text.ofHexDigits digits)))
  | ['i'] => some .index
  | ['[', 'i', ']'] => some .atIndex
  | ['d', 't'] => some .delayTimer
  | ['s', 't'] => some .soundTimer
  | ['k'] => some .key
  | ['p', 'i', 't', 'c', 'h'] => some .pitch
  | ['f'] => some .glyph
  | ['h', 'f'] => some .bigGlyph
  | ['b'] => some .decimal
  | ['r'] => some .flags
  | ['b', 'a', 'u', 'd'] => some .baud
  | _ => none

/-- An operand with its number, if it is one, as an address. -/
def widen : Operand → Operand
  | .byte b => .address b.toUInt16
  | .nibble n => .address n.toUInt16
  | o => o

theorem read_hexNumber (width n : Nat) : read (Text.hexNumber width n).toList = some (.address (UInt16.ofNat n)) := by
  rw [Text.toList_hexNumber, read, Text.ofHexDigits_hexDigits]

/-- An operand is read back, but for the size of a number. -/
theorem read_text (o : Operand) : read (o.textWith Instruction.addressText).toList = some o.widen := by
  cases o with
  | register r =>
    have hdigits : Text.ofHexDigits (Text.hexDigits 1 r.val) = r.val := Text.ofHexDigits_hexDigits 1 r.val
    show read ("v" ++ Text.hex 1 r.val).toList = some (.register r)
    rw [String.toList_append, Text.toList_hex]
    show (if h : Text.ofHexDigits (Text.hexDigits 1 r.val) < 16 then some (register ⟨_, h⟩) else none) = _
    rw [dif_pos (hdigits.symm ▸ r.isLt)]
    exact congrArg (fun r => some (register r)) (Fin.ext hdigits)
  | byte b => exact (read_hexNumber 2 b.toNat).trans (by rw [UInt16.ofNat_uInt8ToNat]; rfl)
  | nibble n => exact (read_hexNumber 1 n.toNat).trans (by rw [UInt16.ofNat_uInt8ToNat]; rfl)
  | address a => exact (read_hexNumber 3 a.toNat).trans (by rw [UInt16.ofNat_toNat]; rfl)
  | _ =>
    simp only [textWith]
    decide

/-- So are operands in a row. -/
theorem mapM_read_text (os : List Operand) :
    (os.map fun o => (o.textWith Instruction.addressText).toList).mapM read = some (os.map widen) := by
  induction os with
  | nil => rfl
  | cons o os ih =>
    rw [List.map_cons, List.mapM_cons, read_text, ih]
    rfl

/-- No operand is written as nothing at all. -/
theorem toList_text_ne_nil (o : Operand) : (o.textWith Instruction.addressText).toList ≠ [] := by
  intro h
  have hread := o.read_text
  rw [h] at hread
  cases hread

/-- What stands between operands does not stand in them. -/
theorem separators_not_mem_text (o : Operand) :
    ' ' ∉ (o.textWith Instruction.addressText).toList ∧ ',' ∉ (o.textWith Instruction.addressText).toList := by
  have hnumber {c : Char} (hmark : c ∉ ['0', 'x']) (hdigit : ∀ d < 16, Nat.digitChar d ≠ c) (a : UInt16) :
      c ∉ (Instruction.addressText a).toList := by
    rw [Instruction.addressText, Text.toList_hexNumber]
    exact fun h => (List.mem_append.mp h).elim hmark (Text.not_mem_hexDigits hdigit 3 a.toNat)
  exact ⟨o.not_mem_textWith (by decide) (by decide) (hnumber (by decide) (by decide)),
    o.not_mem_textWith (by decide) (by decide) (hnumber (by decide) (by decide))⟩

end Operand

namespace Instruction

/-! ## Names and operands -/

/-- The instruction with a name and operands, if there is one. -/
def ofParts (name : String) : List Operand → Option Instruction
  | [] =>
    match name with
    | "nop" => some .nop
    | "cls" => some .clear
    | "ret" => some .ret
    | "rst" => some .restart
    | "scr" => some (.extension .scrollRight)
    | "scl" => some (.extension .scrollLeft)
    | "low" => some (.extension .lowResolution)
    | "high" => some (.extension .highResolution)
    | _ => none
  | [.address a] =>
    match name with
    | "jp" => some (.jump a)
    | "call" => some (.call a)
    | "scd" => some (.extension (.scrollDown a.toUInt8))
    | _ => none
  | [.register x] =>
    match name with
    | "skp" => some (.skipIfKey x)
    | "sknp" => some (.skipUnlessKey x)
    | "stop" => some (.stop x)
    | "out" => some (.extension (.serialOut x))
    | "in" => some (.extension (.serialIn x))
    | _ => none
  | [.register x, .address a] =>
    match name with
    | "se" => some (.skipIfByte x a.toUInt8)
    | "sne" => some (.skipUnlessByte x a.toUInt8)
    | "ld" => some (.setByte x a.toUInt8)
    | "add" => some (.addByte x a.toUInt8)
    | "rnd" => some (.random x a.toUInt8)
    | "jp" => some (.jumpIndirect a)
    | _ => none
  | [.register x, .register y] =>
    match name with
    | "se" => some (.skipIfSame x y)
    | "sne" => some (.skipUnlessSame x y)
    | "ld" => some (.operate .copy x y)
    | "or" => some (.operate .or x y)
    | "and" => some (.operate .and x y)
    | "xor" => some (.operate .xor x y)
    | "add" => some (.operate .add x y)
    | "sub" => some (.operate .subtract x y)
    | "shr" => some (.operate .shiftRight x y)
    | "subn" => some (.operate .reverseSubtract x y)
    | "shl" => some (.operate .shiftLeft x y)
    | _ => none
  | [.register x, .register y, .address a] => if name = "drw" then some (.draw x y a.toUInt8) else none
  | [.index, .register x] => if name = "add" then some (.addIndex x) else none
  | operands => if name = "ld" then load operands else none
where
  /-- The other instructions called `ld`, which no register or number alone tells apart. -/
  load : List Operand → Option Instruction
    | [.index, .address a] => some (.setIndex a)
    | [.register x, .delayTimer] => some (.readDelay x)
    | [.register x, .key] => some (.waitKey x)
    | [.register x, .atIndex] => some (.restore x)
    | [.register x, .flags] => some (.extension (.loadFlags x))
    | [.delayTimer, .register x] => some (.setDelay x)
    | [.soundTimer, .register x] => some (.setSound x)
    | [.pitch, .register x] => some (.setPitch x)
    | [.glyph, .register x] => some (.glyph x)
    | [.decimal, .register x] => some (.decimal x)
    | [.atIndex, .register x] => some (.store x)
    | [.bigGlyph, .register x] => some (.extension (.bigGlyph x))
    | [.baud, .register x] => some (.extension (.setBaud x))
    | [.flags, .register x] => some (.extension (.saveFlags x))
    | _ => none

/-- The name and the kinds of the operands say which instruction it is. -/
theorem ofParts_parts (i : Instruction) : ofParts i.name (i.operands.map Operand.widen) = some i := by
  cases i with
  | operate op x y => cases op <;> rfl
  | extension e =>
    cases e with
    | scrollDown n => exact congrArg (fun byte => some (extension (.scrollDown byte))) (UInt8.toUInt8_toUInt16 n)
    | _ => rfl
  | skipIfByte x b => exact congrArg (fun byte => some (skipIfByte x byte)) (UInt8.toUInt8_toUInt16 b)
  | skipUnlessByte x b => exact congrArg (fun byte => some (skipUnlessByte x byte)) (UInt8.toUInt8_toUInt16 b)
  | setByte x b => exact congrArg (fun byte => some (setByte x byte)) (UInt8.toUInt8_toUInt16 b)
  | addByte x b => exact congrArg (fun byte => some (addByte x byte)) (UInt8.toUInt8_toUInt16 b)
  | random x b => exact congrArg (fun byte => some (random x byte)) (UInt8.toUInt8_toUInt16 b)
  | draw x y n => exact congrArg (fun byte => some (draw x y byte)) (UInt8.toUInt8_toUInt16 n)
  | _ => rfl

/-! ## Texts -/

/-- What stands in the column of the name. -/
def nameOf (text : List Char) : List Char := (text.take 5).filter (· ≠ ' ')

/-- What stands behind that column, between the commas. -/
def partsOf (text : List Char) : List (List Char) := (((text.drop 5).filter (· ≠ ' ')).splitOn ',').filter (· ≠ [])

/-- The instruction of a text. -/
def read (text : List Char) : Option Instruction := do
  let operands ← (partsOf text).mapM Operand.read
  ofParts (String.ofList (nameOf text)) operands

/-- The texts of the operands. -/
def operandTexts (i : Instruction) : List (List Char) := i.operands.map fun o => (o.textWith addressText).toList

/-- A text is the name, filled up if there are operands, and the operands. -/
theorem toList_text (i : Instruction) :
    i.operands = [] ∧ i.text.toList = i.name.toList ∨
      i.text.toList =
        (i.name.toList ++ List.replicate (5 - i.name.length) ' ') ++ [',', ' '].intercalate i.operandTexts := by
  unfold text textWith
  split
  · rename_i hnone
    exact Or.inl ⟨hnone, rfl⟩
  · right
    rw [String.toList_append, Text.toList_column, String.toList_intercalate, List.map_map]
    rfl

/-- Spaces only fill up and separate: without them, the columns are the name and the operands between commas. -/
theorem columns_of_text (i : Instruction) :
    nameOf i.text.toList = i.name.toList ∧ (i.text.toList.drop 5).filter (· ≠ ' ') = [','].intercalate i.operandTexts := by
  obtain ⟨hspace, hshort⟩ := names_short i.name i.name_mem_names
  have hname : i.name.toList.filter (· ≠ ' ') = i.name.toList :=
    List.filter_eq_self.mpr fun c hc => decide_eq_true (ne_of_mem_of_not_mem hc hspace)
  have hlength : i.name.toList.length < 5 := String.length_toList ▸ hshort
  rcases i.toList_text with ⟨hnone, htext⟩ | htext
  · rw [nameOf, htext, List.take_of_length_le (Nat.le_of_lt hlength), List.drop_of_length_le (Nat.le_of_lt hlength), operandTexts, hnone]
    exact ⟨hname, rfl⟩
  · have hfive : (i.name.toList ++ List.replicate (5 - i.name.length) ' ').length = 5 := by
      rw [List.length_append, List.length_replicate, String.length_toList]
      omega
    have hfill : (List.replicate (5 - i.name.length) ' ').filter (· ≠ ' ') = [] :=
      List.filter_eq_nil_iff.mpr fun c hc => by simp [List.eq_of_mem_replicate hc]
    have hparts : i.operandTexts.map (List.filter (· ≠ ' ')) = i.operandTexts := by
      refine (List.map_congr_left fun part hpart => ?_).trans (List.map_id _)
      obtain ⟨o, -, rfl⟩ := List.mem_map.mp hpart
      exact List.filter_eq_self.mpr fun c hc => decide_eq_true (ne_of_mem_of_not_mem hc o.separators_not_mem_text.1)
    rw [nameOf, htext, List.take_left' hfive, List.drop_left' hfive, List.filter_append, hname, hfill, Text.filter_intercalate, hparts]
    exact ⟨List.append_nil _, rfl⟩

theorem partsOf_text (i : Instruction) : partsOf i.text.toList = i.operandTexts := by
  have hcomma : ∀ part ∈ i.operandTexts, ',' ∉ part := by
    intro part hpart
    obtain ⟨o, -, rfl⟩ := List.mem_map.mp hpart
    exact o.separators_not_mem_text.2
  have hfull : ∀ part ∈ i.operandTexts, part ≠ [] := by
    intro part hpart
    obtain ⟨o, -, rfl⟩ := List.mem_map.mp hpart
    exact o.toList_text_ne_nil
  rw [partsOf, i.columns_of_text.2]
  by_cases hnone : i.operandTexts = []
  · rw [hnone]
    rfl
  · rw [List.splitOn_intercalate ',' hcomma hnone]
    exact List.filter_eq_self.mpr fun part hpart => decide_eq_true (hfull part hpart)

/-- An instruction is read back from its text. -/
theorem read_text (i : Instruction) : read i.text.toList = some i := by
  rw [read, partsOf_text, i.columns_of_text.1, operandTexts, Operand.mapM_read_text, String.ofList_toList]
  exact i.ofParts_parts

/-- Texts tell instructions apart. No two instructions have the same text, whatever registers, numbers and addresses stand in them. Two
words that are instructions have the same text only if they are the same word, or differ in nothing but the lowest nibble of a skip that
compares two registers. -/
theorem text_tells_apart :
    Function.Injective text ∧
      ∀ op op' i i', decode op = some i → decode op' = some i' →
        (i.text = i'.text ↔
          op = op' ∨ op.group = op'.group ∧ (op.group = 5 ∨ op.group = 9) ∧ op.x = op'.x ∧ op.y = op'.y) := by
  have hinjective : Function.Injective text := by
    intro i i' h
    have hread := i.read_text
    rw [h, i'.read_text] at hread
    exact (Option.some.inj hread).symm
  refine ⟨hinjective, fun op op' i i' h h' => ?_⟩
  rw [hinjective.eq_iff]
  exact decode_eq_decode_iff h h'

/-- Two skips with different nibbles are written alike, two instructions called `ld` are not. -/
theorem text_tells_apart_loads :
    decode ⟨0x5121⟩ = some (.skipIfSame 1 2) ∧ decode ⟨0x512f⟩ = some (.skipIfSame 1 2) ∧
      decode ⟨0x6122⟩ = some (.setByte 1 0x22) ∧ decode ⟨0x8120⟩ = some (.operate .copy 1 2) ∧
      ((0x5121 : UInt16) ≠ 0x512f ∧ (skipIfSame 1 2).text = "se   v1, v2") ∧
      (setByte 1 0x22).text ≠ (operate .copy 1 2).text := by
  have hbyte : decode ⟨0x6122⟩ = some (.setByte 1 0x22) := by decide
  have hcopy : decode ⟨0x8120⟩ = some (.operate .copy 1 2) := by decide
  refine ⟨by decide, by decide, hbyte, hcopy, by decide, fun h => ?_⟩
  have hfields := (text_tells_apart.2 ⟨0x6122⟩ ⟨0x8120⟩ _ _ hbyte hcopy).mp h
  revert hfields
  decide

end Instruction

end ChipEight
