/-!
# The hexadecimal font

Sixteen glyphs of five rows, one for each hexadecimal digit. The left four pixels of a row are used.
-/

namespace ChipEight.Font

/-- Where the glyphs lie in memory, just above the region programs run in. -/
def address : UInt16 := 0x1000

/-- The rows of a glyph, one byte each. -/
def glyphBytes : Nat := 5

/-- The glyphs of 0 to F, one after the other. -/
def glyphs : List UInt8 := [
  0xf0, 0x90, 0x90, 0x90, 0xf0,
  0x20, 0x60, 0x20, 0x20, 0x70,
  0xf0, 0x10, 0xf0, 0x80, 0xf0,
  0xf0, 0x10, 0xf0, 0x10, 0xf0,
  0x90, 0x90, 0xf0, 0x10, 0x10,
  0xf0, 0x80, 0xf0, 0x10, 0xf0,
  0xf0, 0x80, 0xf0, 0x90, 0xf0,
  0xf0, 0x10, 0x20, 0x40, 0x40,
  0xf0, 0x90, 0xf0, 0x90, 0xf0,
  0xf0, 0x90, 0xf0, 0x10, 0xf0,
  0xf0, 0x90, 0xf0, 0x90, 0x90,
  0xe0, 0x90, 0xe0, 0x90, 0xe0,
  0xf0, 0x80, 0x80, 0x80, 0xf0,
  0xe0, 0x90, 0x90, 0x90, 0xe0,
  0xf0, 0x80, 0xf0, 0x80, 0xf0,
  0xf0, 0x80, 0xf0, 0x80, 0x80]

/-- Where the glyph of a digit lies. Only the low four bits of `digit` count. -/
def glyphAddress (digit : UInt8) : UInt16 := address + UInt16.ofNat (digit.toNat % 16 * glyphBytes)

end ChipEight.Font
