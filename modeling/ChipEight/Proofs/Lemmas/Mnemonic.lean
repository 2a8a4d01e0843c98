import ChipEight.Instruction.Mnemonic
import ChipEight.Proofs.Lemmas.Text

/-!
# How instructions are written

The text of an instruction starts with its name, which starts with a letter, and is a single line. An instruction with a target ends
with it, and nothing else in its text depends on how an address is written (`Instruction.textWith_of_target?`); in the text of any
other instruction there is no address at all.
-/

namespace ChipEight

namespace Text

/-- What stands in an enumeration stands in the separator or in one of the parts. -/
theorem mem_intercalate {c : Char} {separator : String} {parts : List String} (h : c ∈ (separator.intercalate parts).toList) :
    c ∈ separator.toList ∨ ∃ part ∈ parts, c ∈ part.toList := by
  induction parts with
  | nil => exact absurd h List.not_mem_nil
  | cons first rest ih =>
    cases rest with
    | nil =>
      rw [String.intercalate_singleton] at h
      exact Or.inr ⟨first, List.mem_cons_self, h⟩
    | cons second rest =>
      rw [String.intercalate_cons_cons, String.toList_append, String.toList_append] at h
      rcases List.mem_append.mp h with hfront | hrest
      · rcases List.mem_append.mp hfront with hfirst | hseparator
        · exact Or.inr ⟨first, List.mem_cons_self, hfirst⟩
        · exact Or.inl hseparator
      · rcases ih hrest with hseparator | ⟨part, hpart, hc⟩
        · exact Or.inl hseparator
        · exact Or.inr ⟨part, List.mem_cons_of_mem first hpart, hc⟩

/-- What stands in a column stands in its text, or is a space. -/
theorem mem_column {c : Char} {width : Nat} {s : String} (h : c ∈ (column width s).toList) : c ∈ s.toList ∨ c = ' ' := by
  rw [toList_column] at h
  rcases List.mem_append.mp h with htext | hspace
  · exact Or.inl htext
  · exact Or.inr (List.eq_of_mem_replicate hspace)

end Text

/-- The characters in which operands are written, beside digits and addresses. -/
def Operand.letters : List Char := ['0', 'x', 'v', 'i', '[', ']', 'd', 't', 's', 'k', 'p', 'c', 'h', 'f', 'b', 'r', 'a', 'u']

/-- What is no digit, no letter of an operand and in no address does not stand in an operand. -/
theorem Operand.not_mem_textWith (o : Operand) {c : Char} {write : UInt16 → String} (hdigit : ∀ d < 16, Nat.digitChar d ≠ c)
    (hletter : c ∉ letters) (haddress : ∀ a, c ∉ (write a).toList) : c ∉ (o.textWith write).toList := by
  have hplain (s : String) (hs : s.toList ⊆ letters) : c ∉ s.toList := fun hc => hletter (hs hc)
  have hnumber (width n : Nat) : c ∉ (Text.hexNumber width n).toList := by
    have hmark := hplain "0x" (by decide)
    rw [Text.hexNumber, String.toList_append, Text.toList_hex, List.mem_append]
    exact not_or.mpr ⟨hmark, Text.not_mem_hexDigits hdigit width n⟩
  cases o with
  | register r =>
    have hmark := hplain "v" (by decide)
    show c ∉ ("v" ++ Text.hex 1 r.val).toList
    rw [String.toList_append, Text.toList_hex, List.mem_append]
    exact not_or.mpr ⟨hmark, Text.not_mem_hexDigits hdigit 1 r.val⟩
  | byte b => exact hnumber 2 b.toNat
  | nibble n => exact hnumber 1 n.toNat
  | address a => exact haddress a
  | _ =>
    simp only [textWith]
    exact hplain _ (by decide)

namespace Instruction

/-! ## Names -/

/-- The names there are. -/
def names : List String :=
  ["nop", "cls", "ret", "rst", "jp", "call", "se", "sne", "add", "ld", "or", "and", "xor", "sub", "shr", "subn", "shl", "rnd", "drw",
    "skp", "sknp", "stop", "scd", "scr", "scl", "low", "high", "out", "in"]

theorem name_mem_names (i : Instruction) : i.name ∈ names := by
  cases i with
  | operate op => cases op <;> simp [name, Operation.name, names]
  | extension e => cases e <;> simp [name, Extension.name, names]
  | _ => simp [name, names]

/-- A name starts with a letter and is all on one line. -/
theorem names_plain : ∀ n ∈ names, n.toList.head?.any Char.isAlpha = true ∧ '\n' ∉ n.toList := by
  decide

/-- A name leaves a space in its column. -/
theorem names_short : ∀ n ∈ names, ' ' ∉ n.toList ∧ n.length < 5 := by
  decide

/-- A text starts with the name. -/
theorem name_prefix_textWith (i : Instruction) (write : UInt16 → String) : i.name.toList <+: (i.textWith write).toList := by
  unfold textWith
  split
  · exact List.prefix_refl _
  · rw [String.toList_append, Text.toList_column, List.append_assoc]
    exact List.prefix_append _ _

/-- A text starts with a letter. -/
theorem isAlpha_head_textWith (i : Instruction) (write : UInt16 → String) :
    (i.textWith write).toList.head?.any Char.isAlpha = true := by
  have hname := (names_plain i.name i.name_mem_names).1
  obtain ⟨rest, hrest⟩ := i.name_prefix_textWith write
  rw [← hrest]
  cases hlist : i.name.toList with
  | nil =>
    rw [hlist] at hname
    cases hname
  | cons c others =>
    rw [hlist] at hname
    exact hname

/-- A text is all on one line if the addresses are. -/
theorem newline_not_mem_textWith (i : Instruction) {write : UInt16 → String} (h : ∀ a, '\n' ∉ (write a).toList) :
    '\n' ∉ (i.textWith write).toList := by
  have hname := (names_plain i.name i.name_mem_names).2
  unfold textWith
  split
  · exact hname
  · intro hmem
    rw [String.toList_append] at hmem
    rcases List.mem_append.mp hmem with hcolumn | hoperands
    · rcases Text.mem_column hcolumn with hin | hspace
      · exact hname hin
      · cases hspace
    · rcases Text.mem_intercalate hoperands with hcomma | ⟨_, hpart, hin⟩
      · revert hcomma
        decide
      · obtain ⟨operand, -, rfl⟩ := List.mem_map.mp hpart
        exact operand.not_mem_textWith (by decide) (by decide) h hin

/-! ## Targets -/

/-- An instruction with a target is written as one of these beginnings and then the target. -/
theorem textWith_of_target? {i : Instruction} {t : UInt16} (h : i.target? = some t) :
    ∃ lead ∈ ["jp   ", "call ", "ld   i, ", "jp   v0, "], ∀ write, i.textWith write = lead ++ write t := by
  have honly (name : String) (write : UInt16 → String) :
      Text.column 5 name ++ ", ".intercalate [write t] = Text.column 5 name ++ write t := by
    rw [String.intercalate_singleton]
  have hbehind (name first : String) (write : UInt16 → String) :
      Text.column 5 name ++ ", ".intercalate [first, write t] = Text.column 5 name ++ (first ++ ", ") ++ write t := by
    rw [String.intercalate_cons_cons, String.intercalate_singleton]
    simp only [String.append_assoc]
  cases i with
  | jump a =>
    cases h
    have hlead : Text.column 5 "jp" = "jp   " := by decide
    exact ⟨"jp   ", by decide, fun write => hlead ▸ honly "jp" write⟩
  | call a =>
    cases h
    have hlead : Text.column 5 "call" = "call " := by decide
    exact ⟨"call ", by decide, fun write => hlead ▸ honly "call" write⟩
  | setIndex a =>
    cases h
    have hlead : Text.column 5 "ld" ++ ("i" ++ ", ") = "ld   i, " := by decide
    exact ⟨"ld   i, ", by decide, fun write => hlead ▸ hbehind "ld" "i" write⟩
  | jumpIndirect a =>
    cases h
    have hlead : Text.column 5 "jp" ++ ("v" ++ Text.hex 1 0 ++ ", ") = "jp   v0, " := by decide
    exact ⟨"jp   v0, ", by decide, fun write => hlead ▸ hbehind "jp" ("v" ++ Text.hex 1 0) write⟩
  | _ => cases h

/-- The text of an instruction without a target does not depend on how an address is written. -/
theorem textWith_congr {i : Instruction} (h : i.target? = none) (write write' : UInt16 → String) :
    i.textWith write = i.textWith write' := by
  cases i with
  | jump | call | setIndex | jumpIndirect => cases h
  | extension e => cases e <;> rfl
  | _ => rfl

end Instruction

end ChipEight
