import ChipEight.Listing
import ChipEight.Proofs.Lemmas.Mnemonic

/-!
# The lines of a listing

Line `i` of a listing shows the bytes `2 * i` and `2 * i + 1` of the program, or the last byte alone, and stands at the address of the
first of them (`Listing.getElem?_lines`). It is printed in columns: eight characters for a label, four for the address, two spaces, six
for the bytes, and then the text (`Listing.toList_text`). There is no line feed in it, so the lines can be told apart in what is printed
(`Listing.printed_listing`).
-/

namespace ChipEight.Listing

open Text (occurrences replaceAll)

/-! ## Lines by number -/

/-- What stands at a line of a program. -/
def contentAt? (program : List UInt8) (i : Nat) : Option Content :=
  match program[2 * i]?, program[2 * i + 1]? with
  | some high, some low => some (.word (.ofBytes high low))
  | some last, none => some (.byte last)
  | none, _ => none

theorem contentAt?_word {program : List UInt8} {i : Nat} {high low : UInt8} (hhigh : program[2 * i]? = some high)
    (hlow : program[2 * i + 1]? = some low) : contentAt? program i = some (.word (.ofBytes high low)) := by
  rw [contentAt?, hhigh, hlow]

theorem contentAt?_byte {program : List UInt8} {i : Nat} {last : UInt8} (hlast : program[2 * i]? = some last)
    (hend : 2 * i + 1 = program.length) : contentAt? program i = some (.byte last) := by
  rw [contentAt?, hlast, List.getElem?_eq_none (Nat.le_of_eq hend.symm)]

/-- The address of a line. -/
def addressAt (base : UInt16) (i : Nat) : UInt16 := base + UInt16.ofNat (2 * i)

theorem toNat_addressAt (base : UInt16) (i : Nat) : (addressAt base i).toNat = (base.toNat + 2 * i) % 65536 := by
  rw [addressAt, UInt16.toNat_add, UInt16.toNat_ofNat']
  omega

theorem addressAt_succ (base : UInt16) (i : Nat) : addressAt base (i + 1) = addressAt (base + 2) i := by
  apply UInt16.toNat_inj.mp
  rw [toNat_addressAt, toNat_addressAt, UInt16.toNat_add]
  show _ = ((base.toNat + 2) % 65536 + 2 * i) % 65536
  omega

theorem getElem?_lines (base : UInt16) (program : List UInt8) (i : Nat) :
    (lines base program)[i]? = (contentAt? program i).map (Line.mk (addressAt base i)) := by
  fun_induction lines base program generalizing i with
  | case1 => simp [contentAt?]
  | case2 base last =>
    cases i with
    | zero => simp [contentAt?, addressAt]
    | succ i => simp [contentAt?, Nat.mul_add]
  | case3 base high low rest ih =>
    cases i with
    | zero => simp [contentAt?, addressAt]
    | succ i => rw [List.getElem?_cons_succ, ih, addressAt_succ]; rfl

theorem length_lines (base : UInt16) (program : List UInt8) : (lines base program).length = (program.length + 1) / 2 := by
  fun_induction lines base program with
  | case1 => rfl
  | case2 base last => simp
  | case3 base high low rest ih =>
    rw [List.length_cons, ih, List.length_cons, List.length_cons]
    omega

/-! ## Targets -/

/-- That an instruction of a program points at an address. -/
def PointsAt (program : List UInt8) (t : UInt16) : Prop :=
  ∃ n high low i, program[2 * n]? = some high ∧ program[2 * n + 1]? = some low ∧
    Instruction.decode (.ofBytes high low) = some i ∧ i.target? = some t

theorem contains_targets {ls : List Line} {t : UInt16} :
    (targets ls).contains t = true ↔ ∃ l ∈ ls, l.target? = some t := by
  have key (ts : List UInt16) (e : EntryPoints) :
      (ts.foldl EntryPoints.insert e).contains t = true ↔ t ∈ ts ∨ e.contains t = true := by
    induction ts generalizing e with
    | nil => simp
    | cons a rest ih =>
      rw [List.foldl_cons, ih, EntryPoints.contains_insert, Bool.or_eq_true, beq_iff_eq, List.mem_cons]
      exact or_left_comm.trans or_assoc.symm
  rw [targets, key, List.mem_filterMap]
  simp [EntryPoints.contains, EntryPoints.empty]

/-- The labels of a listing are the addresses that the program points at. -/
theorem contains_targets_lines {base : UInt16} {program : List UInt8} {t : UInt16} :
    (targets (lines base program)).contains t = true ↔ PointsAt program t := by
  rw [contains_targets]
  constructor
  · rintro ⟨l, hl, ht⟩
    obtain ⟨n, hn⟩ := List.mem_iff_getElem?.mp hl
    rw [getElem?_lines] at hn
    obtain ⟨content, hcontent, rfl⟩ := Option.map_eq_some_iff.mp hn
    unfold contentAt? at hcontent
    split at hcontent
    · rename_i high low hhigh hlow
      cases hcontent
      obtain ⟨i, hd, hi⟩ := Option.bind_eq_some_iff.mp ht
      exact ⟨n, high, low, i, hhigh, hlow, hd, hi⟩
    · cases hcontent
      cases ht
    · cases hcontent
  · rintro ⟨n, high, low, i, hhigh, hlow, hd, hi⟩
    have hn : (lines base program)[n]? = some ⟨addressAt base n, .word (.ofBytes high low)⟩ := by
      rw [getElem?_lines, contentAt?_word hhigh hlow]
      rfl
    exact ⟨_, List.mem_of_getElem? hn, Option.bind_eq_some_iff.mpr ⟨i, hd, hi⟩⟩

/-! ## Columns -/

/-- The six characters for the bytes of a line. -/
def Content.code : Content → List Char
  | .word opcode => Text.hexDigits 4 opcode.word.toNat ++ [' ', ' ']
  | .byte value => Text.hexDigits 2 value.toNat ++ [' ', ' ', ' ', ' ']

/-- The text behind the columns of a line. -/
def Content.text : Content → String
  | .word opcode => wordText opcode
  | .byte value => ".byte " ++ Text.hexNumber 2 value.toNat

/-- The label of a line, if it carries one. Only words do. -/
def Line.mark (labels : EntryPoints) (l : Line) : String :=
  match l.content with
  | .word _ => if labels.contains l.address then label l.address ++ ":" else ""
  | .byte _ => ""

/-- A line is printed in columns. -/
theorem toList_text (labels : EntryPoints) (l : Line) :
    (l.text labels).toList =
      (Text.column 8 (l.mark labels)).toList ++
        (Text.hexDigits 4 l.address.toNat ++ ([' ', ' '] ++ (l.content.code ++ l.content.text.toList))) := by
  obtain ⟨address, content⟩ := l
  cases content with
  | word opcode =>
    simp [Line.text, Line.mark, Content.code, Content.text, Text.toList_hex]
  | byte value =>
    simp [Line.text, Line.mark, Content.code, Content.text, Text.toList_hex]

theorem length_label (address : UInt16) : (label address).toList.length = 6 := by
  have hdigits : (Text.hexDigits 4 address.toNat).length = 4 := Text.length_hexDigits (by decide) address.toNat_lt
  rw [label, String.toList_append, Text.toList_hexUpper, List.length_append, List.length_map, hdigits]
  rfl

theorem toList_column_label (address : UInt16) :
    (Text.column 8 (label address ++ ":")).toList = (label address).toList ++ [':', ' '] := by
  have hlength : (label address ++ ":").length = 7 := by
    rw [← String.length_toList, String.toList_append, List.length_append, length_label]
    rfl
  rw [Text.toList_column, hlength, String.toList_append, List.append_assoc]
  rfl

theorem toList_column_blank : (Text.column 8 "").toList = List.replicate 8 ' ' := by
  decide

/-- There is room for a label in its column. -/
theorem length_column_mark (labels : EntryPoints) (l : Line) : (Text.column 8 (l.mark labels)).toList.length = 8 := by
  unfold Line.mark
  split
  · split
    · rw [toList_column_label, List.length_append, length_label]
      rfl
    · rw [toList_column_blank, List.length_replicate]
  · rw [toList_column_blank, List.length_replicate]

theorem length_code (content : Content) : content.code.length = 6 := by
  cases content with
  | word opcode =>
    rw [Content.code, List.length_append, Text.length_hexDigits (by decide) opcode.word.toNat_lt]
    rfl
  | byte value =>
    rw [Content.code, List.length_append, Text.length_hexDigits (by decide) value.toNat_lt]
    rfl

/-- What stands in which columns of a printed line. -/
theorem columns_text (labels : EntryPoints) (l : Line) :
    (l.text labels).toList.take 8 = (Text.column 8 (l.mark labels)).toList ∧
      ((l.text labels).toList.drop 8).take 4 = Text.hexDigits 4 l.address.toNat ∧
      ((l.text labels).toList.drop 12).take 2 = [' ', ' '] ∧
      ((l.text labels).toList.drop 14).take 6 = l.content.code ∧
      (l.text labels).toList.drop 20 = l.content.text.toList := by
  have hmark := length_column_mark labels l
  have haddress : (Text.hexDigits 4 l.address.toNat).length = 4 := Text.length_hexDigits (by decide) l.address.toNat_lt
  have hcode := length_code l.content
  have h8 : (l.text labels).toList.drop 8 =
      Text.hexDigits 4 l.address.toNat ++ ([' ', ' '] ++ (l.content.code ++ l.content.text.toList)) := by
    rw [toList_text, List.drop_left' hmark]
  have h12 : (l.text labels).toList.drop 12 = [' ', ' '] ++ (l.content.code ++ l.content.text.toList) := by
    rw [← List.drop_drop (i := 4) (j := 8), h8, List.drop_left' haddress]
  have h14 : (l.text labels).toList.drop 14 = l.content.code ++ l.content.text.toList := by
    rw [← List.drop_drop (i := 2) (j := 12), h12]
    rfl
  have h20 : (l.text labels).toList.drop 20 = l.content.text.toList := by
    rw [← List.drop_drop (i := 6) (j := 14), h14, List.drop_left' hcode]
  refine ⟨?_, ?_, ?_, ?_, h20⟩
  · rw [toList_text, List.take_left' hmark]
  · rw [h8, List.take_left' haddress]
  · rw [h12]
    rfl
  · rw [h14, List.take_left' hcode]

/-! ## The text of an instruction -/

theorem wordText_of_decode {opcode : Opcode} {i : Instruction} (h : Instruction.decode opcode = some i) :
    wordText opcode = i.textWith label := by
  rw [wordText, h]

theorem plain_beginnings : ∀ lead ∈ ["jp   ", "call ", "ld   i, ", "jp   v0, "], 'x' ∉ lead.toList ∧ 'L' ∉ lead.toList := by
  decide

/-- That a text is shown with a name in place of a number: wherever the number stood, which is once and at the end, there is the name,
which is nowhere else, and what is in front of it is the same. -/
structure Exchanged (number name text shown : List Char) : Prop where
  replaced : shown = replaceAll number name text
  front : ∃ lead, text = lead ++ number ∧ shown = lead ++ name
  number_once : occurrences number text = 1
  name_once : occurrences name shown = 1
  number_gone : occurrences number shown = 0

/-- An instruction with a target is written with the label in place of the number. -/
theorem exchanged_textWith {i : Instruction} {t : UInt16} (h : i.target? = some t) :
    Exchanged (Instruction.addressText t).toList (label t).toList i.text.toList (i.textWith label).toList := by
  obtain ⟨lead, hlead, hwrite⟩ := Instruction.textWith_of_target? h
  obtain ⟨hx, hl⟩ := plain_beginnings lead hlead
  have htext : i.text.toList = lead.toList ++ (Instruction.addressText t).toList := by
    rw [Instruction.text, hwrite, String.toList_append]
  have hshown : (i.textWith label).toList = lead.toList ++ (label t).toList := by
    rw [hwrite, String.toList_append]
  have hnumber : (Instruction.addressText t).toList = '0' :: 'x' :: Text.hexDigits 3 t.toNat := Text.toList_hexNumber 3 t.toNat
  have hname : (label t).toList = 'L' :: '_' :: (Text.hexUpper 4 t.toNat).toList := by
    rw [label, String.toList_append]
    rfl
  rw [htext, hshown]
  generalize (Instruction.addressText t).toList = number at hnumber
  generalize (label t).toList = name at hname
  -- the mark of hexadecimal numbers stands in the number only, and the first letter of labels in the name only
  have hxin : 'x' ∈ number := by simp [hnumber]
  have hlin : 'L' ∈ name := by simp [hname]
  have hdigits : 'x' ∉ Text.hexDigits 3 t.toNat := Text.not_mem_hexDigits (by decide) _ _
  have hupper : 'L' ∉ (Text.hexUpper 4 t.toNat).toList := Text.not_mem_hexUpper (by decide) _ _
  have hupper' : 'x' ∉ (Text.hexUpper 4 t.toNat).toList := Text.not_mem_hexUpper (by decide) _ _
  have hcount : (lead.toList ++ number).count 'x' = 1 := by
    simp [hnumber, List.count_eq_zero_of_not_mem, hx, hdigits]
  have hcount' : (lead.toList ++ name).count 'L' = 1 := by
    simp [hname, List.count_eq_zero_of_not_mem, hl, hupper]
  have hzero : (lead.toList ++ name).count 'x' = 0 := by
    simp [hname, List.count_eq_zero_of_not_mem, hx, hupper']
  have honce := Text.occurrences_append_eq_one hxin hcount
  exact {
    replaced := (Text.replaceAll_append (List.ne_nil_of_mem hxin) name honce).symm
    front := ⟨lead.toList, rfl, rfl⟩
    number_once := honce
    name_once := Text.occurrences_append_eq_one hlin hcount'
    number_gone := Nat.le_zero.mp (hzero ▸ Text.occurrences_le_count hxin _) }

/-- The text of an instruction in a listing is its own text, with the label of its target exchanged for the number if it has one. -/
theorem toList_textWith_label (i : Instruction) :
    (i.textWith label).toList =
      match i.target? with
      | some t => replaceAll (Instruction.addressText t).toList (label t).toList i.text.toList
      | none => i.text.toList := by
  cases ht : i.target? with
  | none => rw [Instruction.text, Instruction.textWith_congr ht label Instruction.addressText]
  | some t => exact (exchanged_textWith ht).replaced

/-! ## What is printed -/

theorem newline_not_mem_label (address : UInt16) : '\n' ∉ (label address).toList := by
  have hdigits := Text.not_mem_hexUpper (c := '\n') (by decide) 4 address.toNat
  rw [label, String.toList_append]
  simp [hdigits]

/-- A line is printed without a line feed in it. -/
theorem newline_not_mem_text (labels : EntryPoints) (l : Line) : '\n' ∉ (l.text labels).toList := by
  have hdigits (width n : Nat) : '\n' ∉ Text.hexDigits width n := Text.not_mem_hexDigits (by decide) width n
  have hmark : '\n' ∉ (Text.column 8 (l.mark labels)).toList := by
    unfold Line.mark
    split
    · split
      · rw [toList_column_label]
        simp [newline_not_mem_label]
      · rw [toList_column_blank]
        decide
    · rw [toList_column_blank]
      decide
  have hcode : '\n' ∉ l.content.code := by
    cases l.content <;> simp [Content.code, hdigits]
  have htext : '\n' ∉ l.content.text.toList := by
    cases l.content with
    | word opcode =>
      show '\n' ∉ (wordText opcode).toList
      unfold wordText
      split
      · exact Instruction.newline_not_mem_textWith _ newline_not_mem_label
      · rw [String.toList_append, Text.toList_hexNumber]
        simp [hdigits]
    | byte value =>
      rw [Content.text, String.toList_append, Text.toList_hexNumber]
      simp [hdigits]
  rw [toList_text]
  simp only [List.mem_append, hmark, hdigits, hcode, htext, or_false, false_or]
  decide

/-- The lines of a text of which every line ends with a line feed. -/
def printed (text : String) : List (List Char) := (text.toList.splitOn '\n').dropLast

/-- In what is printed every line ends with a line feed. -/
theorem toList_listing (program : List UInt8) (base : UInt16) :
    (listing program base).toList = (texts program base).flatMap fun t => t.toList ++ ['\n'] := by
  rw [listing, String.toList_join, List.flatMap_map]
  simp only [String.toList_append]
  rfl

/-- Lines without a line feed in them can be told apart when each of them ends with one. -/
theorem splitOn_flatMap {ts : List String} (h : ∀ t ∈ ts, '\n' ∉ t.toList) :
    (ts.flatMap fun t => t.toList ++ ['\n']).splitOn '\n' = ts.map String.toList ++ [[]] := by
  induction ts with
  | nil => rfl
  | cons t rest ih =>
    have hrest := ih fun u hu => h u (List.mem_cons_of_mem t hu)
    rw [List.flatMap_cons, List.append_assoc, List.singleton_append,
      List.splitOn_append_cons_self_of_not_mem (h t List.mem_cons_self), hrest]
    rfl

/-- The lines that are printed are the lines of the listing. -/
theorem printed_listing (program : List UInt8) (base : UInt16) :
    printed (listing program base) = (texts program base).map String.toList := by
  have hplain : ∀ t ∈ texts program base, '\n' ∉ t.toList := by
    intro t ht
    obtain ⟨l, -, rfl⟩ := List.mem_map.mp ht
    exact newline_not_mem_text _ l
  rw [printed, toList_listing, splitOn_flatMap hplain, List.dropLast_concat]

/-- There is a line for every two bytes, and one for a last odd byte. -/
theorem length_printed (program : List UInt8) (base : UInt16) :
    (printed (listing program base)).length = (program.length + 1) / 2 := by
  rw [printed_listing, texts, List.length_map, List.length_map, length_lines]

/-- The printed lines by number. -/
theorem getElem?_printed (program : List UInt8) (base : UInt16) (i : Nat) :
    (printed (listing program base))[i]? = (contentAt? program i).map fun content =>
      (Line.text (targets (lines base program)) ⟨addressAt base i, content⟩).toList := by
  rw [printed_listing, texts, List.map_map, List.getElem?_map, getElem?_lines, Option.map_map]
  rfl

end ChipEight.Listing
