import ChipEight.Proofs.Lemmas.Decode
import ChipEight.Proofs.Lemmas.Listing

/-!
# Reading a listing back

Every byte of a program stands in a fixed place of its listing, whatever labels there are and wherever the addresses wrap: so the program
can be read back from what is printed (`Listing.read`), and two programs at the same address have different listings. The texts behind
the bytes are those of the instructions, and a word reads `.word` exactly when it is no instruction (`Listing.listing_is_lossless`).
-/

namespace ChipEight.Listing

open Text (replaceAll)

/-! ## The reader -/

/-- The byte that two digits write. -/
def byteOf (digits : List Char) : UInt8 := UInt8.ofNat (Text.ofHexDigits digits)

/-- The bytes in the columns of a line, which are two unless there are blanks in place of the second. -/
def bytesOf (line : List Char) : List UInt8 :=
  let code := (line.drop 14).take 6
  if code.drop 2 = [' ', ' ', ' ', ' '] then [byteOf (code.take 2)] else [byteOf (code.take 2), byteOf ((code.drop 2).take 2)]

/-- The program that a listing shows. -/
def read (text : String) : List UInt8 := (printed text).flatMap bytesOf

/-! ## Bytes and their columns -/

/-- The bytes of a program that stand at a line. -/
def Content.bytes : Content → List UInt8
  | .word opcode => [opcode.high, opcode.low]
  | .byte value => [value]

theorem flatMap_bytes_lines (base : UInt16) (program : List UInt8) :
    (lines base program).flatMap (fun l => l.content.bytes) = program := by
  fun_induction lines base program with
  | case1 => rfl
  | case2 base last => rfl
  | case3 base high low rest ih =>
    rw [List.flatMap_cons, ih, Content.bytes, Opcode.high_ofBytes, Opcode.low_ofBytes]
    rfl

theorem length_byte (value : UInt8) : (Text.hexDigits 2 value.toNat).length = 2 := Text.length_hexDigits (by decide) value.toNat_lt

theorem byteOf_hexDigits (value : UInt8) : byteOf (Text.hexDigits 2 value.toNat) = value := by
  rw [byteOf, Text.ofHexDigits_hexDigits, UInt8.ofNat_toNat]

/-- The digits of a word are those of its bytes. -/
theorem code_word (opcode : Opcode) :
    Content.code (.word opcode) =
      Text.hexDigits 2 opcode.high.toNat ++ (Text.hexDigits 2 opcode.low.toNat ++ [' ', ' ']) := by
  have hlow : opcode.word.toNat % 256 < 256 := Nat.mod_lt _ (by decide)
  have hword : opcode.word.toNat = 256 * (opcode.word.toNat / 256) + opcode.word.toNat % 256 := (Nat.div_add_mod _ _).symm
  rw [Content.code, hword, Text.hexDigits_word hlow, Opcode.toNat_high, Opcode.toNat_low, List.append_assoc]

/-- The bytes of a line are read from its columns. -/
theorem bytesOf_text (labels : EntryPoints) (l : Line) : bytesOf (l.text labels).toList = l.content.bytes := by
  obtain ⟨-, -, -, hcode, -⟩ := columns_text labels l
  rw [bytesOf, hcode]
  cases l.content with
  | word opcode =>
    have hdigit : ' ' ∉ Text.hexDigits 2 opcode.low.toNat := Text.not_mem_hexDigits (by decide) _ _
    have htwo : Text.hexDigits 2 opcode.low.toNat ++ [' ', ' '] ≠ [' ', ' ', ' ', ' '] := by
      intro h
      have hblank := congrArg (List.take 2) h
      rw [List.take_left' (length_byte _)] at hblank
      rw [hblank] at hdigit
      exact hdigit List.mem_cons_self
    simp only [code_word, List.drop_left' (length_byte _), List.take_left' (length_byte _), if_neg htwo, byteOf_hexDigits,
      Content.bytes]
  | byte value =>
    simp only [Content.code, List.drop_left' (length_byte _), List.take_left' (length_byte _), if_true, byteOf_hexDigits,
      Content.bytes]

/-- A listing is read back as its program. -/
theorem read_listing (program : List UInt8) (base : UInt16) : read (listing program base) = program := by
  rw [read, printed_listing, texts, List.map_map, List.flatMap_map]
  simp only [Function.comp_apply, bytesOf_text]
  exact flatMap_bytes_lines base program

/-! ## Words and their texts -/

/-- How a word reads: as its instruction with the label of the target exchanged for the number, or as data if it is none. -/
structure Reads (opcode : Opcode) (text : List Char) : Prop where
  instruction : ∀ i, Instruction.decode opcode = some i →
    text = match i.target? with
      | some t => replaceAll (Instruction.addressText t).toList (label t).toList i.text.toList
      | none => i.text.toList
  data : Instruction.decode opcode = none → text = (".word " ++ Text.hexNumber 4 opcode.word.toNat).toList
  data_iff : ".word".toList <+: text ↔ Instruction.decode opcode = none

theorem reads_wordText (opcode : Opcode) : Reads opcode (wordText opcode).toList := by
  have hdata (h : Instruction.decode opcode = none) :
      (wordText opcode).toList = (".word " ++ Text.hexNumber 4 opcode.word.toNat).toList := by
    rw [wordText, h]
  refine ⟨fun i h => ?_, hdata, ?_, ?_⟩
  · rw [wordText_of_decode h]
    exact toList_textWith_label i
  · intro hword
    cases hd : Instruction.decode opcode with
    | none => rfl
    | some i =>
      have halpha := i.isAlpha_head_textWith label
      obtain ⟨rest, hrest⟩ := hword
      rw [← wordText_of_decode hd, ← hrest] at halpha
      cases halpha
  · intro h
    rw [hdata h, String.toList_append]
    exact List.IsPrefix.trans (by decide) (List.prefix_append _ _)

/-! ## The listing -/

/-- What stands in the columns of a line for the address and the bytes. -/
structure Shows (line : List Char) (address : Nat) (code : List Char) : Prop where
  address : (line.drop 8).take 4 = Text.hexDigits 4 address
  gap : (line.drop 12).take 2 = [' ', ' ']
  code : (line.drop 14).take 6 = code

theorem shows_text (labels : EntryPoints) (base : UInt16) (i : Nat) (content : Content) :
    Shows (Line.text labels ⟨addressAt base i, content⟩).toList ((base.toNat + 2 * i) % 65536) content.code := by
  obtain ⟨-, haddress, hgap, hcode, -⟩ := columns_text labels ⟨addressAt base i, content⟩
  exact ⟨toNat_addressAt base i ▸ haddress, hgap, hcode⟩

/-- No byte of a program is lost in its listing, for every program, also one longer than the address space, and every address. Every line
ends with a line feed, and there is one for every two bytes and one for a last odd byte. The address and the digits of the bytes stand in
the same columns of every line, the text behind them is that of the word, and the program is read back from what is printed; so no two
programs have the same listing at an address. -/
theorem listing_is_lossless :
    (∀ (program : List UInt8) (base : UInt16),
      (listing program base).toList = (printed (listing program base)).flatMap (fun line => line ++ ['\n']) ∧
      (printed (listing program base)).length = (program.length + 1) / 2 ∧
      (∀ i line, (printed (listing program base))[i]? = some line →
        '\n' ∉ line ∧
        (∀ high low, program[2 * i]? = some high → program[2 * i + 1]? = some low →
          Shows line ((base.toNat + 2 * i) % 65536)
            (Text.hexDigits 2 high.toNat ++ (Text.hexDigits 2 low.toNat ++ [' ', ' '])) ∧
          Reads (.ofBytes high low) (line.drop 20)) ∧
        (∀ last, program[2 * i]? = some last → 2 * i + 1 = program.length →
          Shows line ((base.toNat + 2 * i) % 65536) (Text.hexDigits 2 last.toNat ++ [' ', ' ', ' ', ' ']) ∧
          line.drop 20 = (".byte " ++ Text.hexNumber 2 last.toNat).toList)) ∧
      read (listing program base) = program) ∧
    ∀ base : UInt16, Function.Injective fun program => listing program base := by
  constructor
  · intro program base
    refine ⟨?_, length_printed program base, fun i line hline => ?_, read_listing program base⟩
    · rw [printed_listing, List.flatMap_map, toList_listing]
    rw [getElem?_printed] at hline
    obtain ⟨content, hcontent, rfl⟩ := Option.map_eq_some_iff.mp hline
    have hshows := shows_text (targets (lines base program)) base i content
    obtain ⟨-, -, -, -, htext⟩ := columns_text (targets (lines base program)) ⟨addressAt base i, content⟩
    refine ⟨newline_not_mem_text _ _, fun high low hhigh hlow => ?_, fun last hlast hend => ?_⟩
    · rw [contentAt?_word hhigh hlow] at hcontent
      cases hcontent
      rw [code_word, Opcode.high_ofBytes, Opcode.low_ofBytes] at hshows
      refine ⟨hshows, ?_⟩
      rw [htext]
      exact reads_wordText _
    · rw [contentAt?_byte hlast hend] at hcontent
      cases hcontent
      exact ⟨hshows, htext⟩
  · intro base
    exact Function.LeftInverse.injective (g := read) fun program => read_listing program base

/-- A call with an odd byte behind it. -/
def callingEnd : List UInt8 := [0x22, 0x02, 0xff]

/-- At the end of the address space the address of the last byte has wrapped; the call is written with its label, and both lines are read
back. -/
theorem listing_is_lossless_odd :
    (printed (listing callingEnd 0xfffe))[0]? = some "        fffe  2202  call L_0202".toList ∧
      (printed (listing callingEnd 0xfffe))[1]? = some "        0000  ff    .byte 0xff".toList ∧
      (printed (listing callingEnd 0xfffe)).length = 2 ∧
      Shows "        fffe  2202  call L_0202".toList 0xfffe "2202  ".toList ∧
      Reads (.ofBytes 0x22 0x02) "call L_0202".toList ∧
      Shows "        0000  ff    .byte 0xff".toList 0 "ff    ".toList ∧
      read (listing callingEnd 0xfffe) = callingEnd := by
  have hfirst : (printed (listing callingEnd 0xfffe))[0]? = some "        fffe  2202  call L_0202".toList := by decide +kernel
  have hlast : (printed (listing callingEnd 0xfffe))[1]? = some "        0000  ff    .byte 0xff".toList := by decide +kernel
  obtain ⟨-, hlength, hlines, hread⟩ := listing_is_lossless.1 callingEnd 0xfffe
  obtain ⟨-, hword, -⟩ := hlines 0 _ hfirst
  obtain ⟨-, -, hbyte⟩ := hlines 1 _ hlast
  obtain ⟨hshows, hreads⟩ := hword _ _ rfl rfl
  exact ⟨hfirst, hlast, hlength, hshows, hreads, (hbyte _ rfl rfl).1, hread⟩

end ChipEight.Listing
