import ChipEight.Instruction.Decode
import ChipEight.Instruction.Mnemonic
import ChipEight.Trace.EntryPoints

/-!
# Listings

A program without running it: one line for each word, and one for the last byte if the length is odd. A line has a column for a
label, the address, the bytes and the text. Every address that an instruction of the program points at is a label; a word line at
such an address carries it, and the instructions that point there show it in place of the number. Addresses wrap at sixteen bits.
-/

namespace ChipEight

namespace Listing

/-- What stands at a line. -/
inductive Content where
  | word (opcode : Opcode)
  /-- The last byte of a program of odd length. -/
  | byte (value : UInt8)
  deriving DecidableEq, Repr

/-- A line of a listing. -/
structure Line where
  address : UInt16
  content : Content
  deriving DecidableEq, Repr

/-- The lines of a program that starts at an address. -/
def lines (base : UInt16) : List UInt8 → List Line
  | [] => []
  | [last] => [⟨base, .byte last⟩]
  | high :: low :: rest => ⟨base, .word (.ofBytes high low)⟩ :: lines (base + 2) rest

/-- The address that a line points at, if it does. -/
def Line.target? (l : Line) : Option UInt16 :=
  match l.content with
  | .word opcode => (Instruction.decode opcode).bind Instruction.target?
  | .byte _ => none

/-- All addresses that lines point at. -/
def targets (ls : List Line) : EntryPoints := (ls.filterMap Line.target?).foldl EntryPoints.insert .empty

/-- The name of the label at an address. -/
def label (address : UInt16) : String := "L_" ++ Text.hexUpper 4 address.toNat

/-- The text of a word. -/
def wordText (opcode : Opcode) : String :=
  match Instruction.decode opcode with
  | some i => i.textWith label
  | none => ".word " ++ Text.hexNumber 4 opcode.word.toNat

/-- The text of a line, without the end of the line. -/
def Line.text (labels : EntryPoints) (l : Line) : String :=
  match l.content with
  | .word opcode =>
    Text.column 8 (if labels.contains l.address then label l.address ++ ":" else "") ++ Text.hex 4 l.address.toNat ++ "  " ++
      Text.hex 4 opcode.word.toNat ++ "  " ++ wordText opcode
  | .byte value =>
    Text.column 8 "" ++ Text.hex 4 l.address.toNat ++ "  " ++ Text.hex 2 value.toNat ++ "    .byte " ++
      Text.hexNumber 2 value.toNat

/-- The texts of all lines of a program. -/
def texts (program : List UInt8) (base : UInt16) : List String :=
  let ls := lines base program
  let labels := targets ls
  ls.map (Line.text labels)

end Listing

/-- The listing of a program as if loaded at an address. Every line ends with a line feed. -/
def listing (program : List UInt8) (base : UInt16) : String :=
  String.join ((Listing.texts program base).map (· ++ "\n"))

end ChipEight
