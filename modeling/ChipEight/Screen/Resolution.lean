/-!
# Resolutions

A width and a height in pixels, neither of them zero. Pixels are numbered row by row from the top left corner and packed eight to
a byte, the first in the top bit; rows are not padded, so only the last byte of all can have bits to spare.
-/

namespace ChipEight

/-- The size of a monochrome picture. -/
structure Resolution where
  width : Nat
  height : Nat
  width_pos : 0 < width
  height_pos : 0 < height
  deriving DecidableEq

namespace Resolution

/-- The picture of the machine. -/
def standard : Resolution := ⟨64, 32, by decide, by decide⟩

/-- How many pixels there are. -/
def pixelCount (r : Resolution) : Nat := r.width * r.height

/-- How many bytes the pixels take. -/
def byteCount (r : Resolution) : Nat := (r.pixelCount + 7) / 8

/-- The number of a pixel. Coordinates wrap around the edges. -/
def pixelIndex (r : Resolution) (x y : Nat) : Nat := y % r.height * r.width + x % r.width

theorem pixelIndex_lt (r : Resolution) (x y : Nat) : r.pixelIndex x y < r.pixelCount := by
  have hx : x % r.width < r.width := Nat.mod_lt x r.width_pos
  have hy : y % r.height + 1 ≤ r.height := Nat.mod_lt y r.height_pos
  calc y % r.height * r.width + x % r.width
      < y % r.height * r.width + r.width := by omega
    _ = (y % r.height + 1) * r.width := by rw [Nat.add_mul, Nat.one_mul]
    _ ≤ r.height * r.width := Nat.mul_le_mul_right _ hy
    _ = r.width * r.height := Nat.mul_comm _ _

/-- The byte of a pixel is one of the bytes. -/
theorem div_eight_lt {r : Resolution} {i : Nat} (h : i < r.pixelCount) : i / 8 < r.byteCount := by
  unfold byteCount
  omega

/-- The lowest and the highest horizontal coordinate of a canvas. -/
def xBounds (r : Resolution) : Int × Int := (0, r.width - 1)

/-- The lowest and the highest vertical coordinate of a canvas, which grows upwards from below zero. -/
def yBounds (r : Resolution) : Int × Int := (-(r.height - 1), 0)

/-- The canvas coordinates of the lit pixels of a packed picture, row by row. They are whole numbers; a canvas that takes 64-bit
floating point coordinates has them exactly as long as width and height are at most 2 ^ 53. -/
def litPoints (r : Resolution) (bytes : Vector UInt8 r.byteCount) : List (Int × Int) :=
  (List.finRange r.pixelCount).filterMap fun i =>
    have := div_eight_lt i.isLt
    if (bytes[i.val / 8].toNat >>> (7 - i.val % 8)) % 2 = 1 then some (↑(i.val % r.width), -↑(i.val / r.width)) else none

end Resolution

end ChipEight
