/-!
# Characters from bytes

A character is one to four bytes. The first of them says how many, and all others are marked as continuing.
-/

namespace ChipEight.Text

/-- The text that bytes write, if they write one. -/
def ofUtf8? (bytes : List UInt8) : Option String := String.fromUTF8? ⟨bytes.toArray⟩

/-- How many bytes a character with a given first byte has. No character starts with a continuing byte. -/
def utf8Length (first : UInt8) : Nat :=
  if first < 0x80 then 1
  else if first < 0xc0 then 0
  else if first < 0xe0 then 2
  else if first < 0xf0 then 3
  else if first < 0xf8 then 4
  else 0

/-- Whether a byte is marked as continuing. -/
def continues (byte : UInt8) : Bool := byte &&& 0xc0 == 0x80

/-- Whether bytes are the start of a character that has more of them. -/
def isUtf8Start : List UInt8 → Bool
  | [] => true
  | first :: rest => rest.all continues && decide (rest.length + 1 < utf8Length first)

end ChipEight.Text
