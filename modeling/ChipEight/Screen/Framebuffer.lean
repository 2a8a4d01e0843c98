import ChipEight.Screen.Resolution
import ChipEight.Screen.Surface

/-!
# The framebuffer

A surface in memory: packed pixels and a mark that something was drawn. It is marked when it is made, and every plot and every
clear marks it again.
-/

namespace ChipEight

/-- The pixels of a picture of a given size. -/
structure Framebuffer (r : Resolution) where
  bytes : Vector UInt8 r.byteCount
  /-- Whether anything changed since somebody last asked. -/
  dirty : Bool
  deriving DecidableEq

namespace Framebuffer

variable {r : Resolution}

/-- All pixels off. -/
def blank (r : Resolution) : Framebuffer r := ⟨Vector.replicate r.byteCount 0, true⟩

/-- The bit of a pixel in its byte. -/
def mask (pixel : Nat) : UInt8 := 0x80 >>> UInt8.ofNat (pixel % 8)

/-- Whether a pixel is lit. -/
def isSet (f : Framebuffer r) (x y : Nat) : Bool :=
  have := Resolution.div_eight_lt (r.pixelIndex_lt x y)
  f.bytes[r.pixelIndex x y / 8] &&& mask (r.pixelIndex x y) != 0

/-- Toggles a pixel, and says whether it was lit before. -/
def plot (f : Framebuffer r) (x y : Nat) : Bool × Framebuffer r :=
  have := Resolution.div_eight_lt (r.pixelIndex_lt x y)
  let byte := f.bytes[r.pixelIndex x y / 8]
  (f.isSet x y, ⟨f.bytes.set (r.pixelIndex x y / 8) (byte ^^^ mask (r.pixelIndex x y)), true⟩)

/-- Turns every pixel off. -/
def clear (_ : Framebuffer r) : Framebuffer r := blank r

/-- How many bits of a byte are set. -/
def bitCount (byte : UInt8) : Nat := (List.range 8).countP byte.toNat.testBit

/-- How many pixels are lit. -/
def litCount (f : Framebuffer r) : Nat := f.bytes.toList.foldl (fun n byte => n + bitCount byte) 0

/-- Whether anything changed since the last time this was asked. -/
def takeDirty (f : Framebuffer r) : Bool × Framebuffer r := (f.dirty, { f with dirty := false })

/-- Nobody looks at a framebuffer, so presenting it does nothing. -/
instance : Surface (Framebuffer r) where
  plot := plot
  clear := clear
  present f := (none, f)

end Framebuffer

end ChipEight
