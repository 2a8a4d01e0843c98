import ChipEight.Text.Hex

/-!
# Faults

Everything that can end a session abnormally. A fault names the address or the size that caused it, and `Fault.message` is its
wording.
-/

namespace ChipEight

/-- What a program did wrong. -/
inductive Fault where
  /-- The word at `address` is no instruction. -/
  | undefinedOpcode (opcode address : UInt16)
  /-- An access to memory or a move of the program counter left its region at `address`. -/
  | outOfRange (address : Nat)
  /-- A call at `address` found all frames in use. -/
  | stackOverflow (address : UInt16)
  /-- A return at `address` found no frame. -/
  | stackUnderflow (address : UInt16)
  /-- A program of `size` bytes does not fit into the `max` bytes from its address on. -/
  | programTooLarge (size max : Nat)
  deriving DecidableEq, Repr

/-- The wording of a fault. Addresses and words have at least four hexadecimal digits, sizes are decimal. -/
def Fault.message : Fault → String
  | .undefinedOpcode opcode address =>
    "undefined opcode " ++ Text.hexNumber 4 opcode.toNat ++ " at " ++ Text.hexNumber 4 address.toNat
  | .outOfRange address => "address " ++ Text.hexNumber 4 address ++ " is outside the addressable region"
  | .stackOverflow address => "call stack full, call from " ++ Text.hexNumber 4 address.toNat
  | .stackUnderflow address => "return with an empty call stack at " ++ Text.hexNumber 4 address.toNat
  | .programTooLarge size max =>
    "program is too large (" ++ toString size ++ " bytes), max size is " ++ toString max ++ " bytes"

end ChipEight
