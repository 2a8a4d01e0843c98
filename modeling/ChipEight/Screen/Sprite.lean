import ChipEight.Dialect
import ChipEight.Machine.Memory
import ChipEight.Machine.Registers
import ChipEight.Screen.Surface

/-!
# Sprites

A sprite is a run of bytes in memory, one row of eight pixels each, the left pixel in the top bit. Drawing it toggles a pixel of
the surface for every set bit. All rows are read before anything is drawn.
-/

namespace ChipEight.Sprite

/-- How many rows a sprite of height `n` has. -/
def rows (d : Dialect) (n : UInt8) : Nat :=
  if n = 0 then if d.zeroHeightIsSixteen then 16 else 0 else n.toNat

/-- A height that is not 0 is the number of rows. -/
theorem rows_of_ne_zero (d : Dialect) {n : UInt8} (h : n ≠ 0) : rows d n = n.toNat := if_neg h

/-- A sprite of height 0 has sixteen rows in the dialects that say so. -/
theorem rows_zero_of_sixteen {d : Dialect} (h : d.zeroHeightIsSixteen = true) : rows d 0 = 16 := by
  rw [rows, if_pos rfl, if_pos h]

/-- A sprite of height 0 has no rows in the other dialects. -/
theorem rows_zero_of_none {d : Dialect} (h : d.zeroHeightIsSixteen = false) : rows d 0 = 0 := by
  rw [rows, if_pos rfl, h, if_neg Bool.false_ne_true]

/-- Whether a row of a sprite has a pixel in a column. -/
def hasPixel (row : UInt8) (column : Nat) : Bool := row.toNat.testBit (7 - column)

/-- The points a sprite touches, row by row and from left to right. -/
def points (left top : Nat) (bytes : List UInt8) : List (Nat × Nat) :=
  bytes.zipIdx.flatMap fun (row, dy) => ((List.range 8).filter (hasPixel row)).map fun dx => (left + dx, top + dy)

/-- Draws the sprite at the index with its corner at (Vx, Vy). The flag is cleared first, also when the rows cannot be read, and
set when a pixel was lit before it was toggled. -/
def draw {σ : Type} [Surface σ] (d : Dialect) (m : Memory) (surface : σ) (r : Registers) (x y : Register) (n : UInt8) :
    Registers × Except Fault σ :=
  let cleared := r.setFlag false
  match m.read r.index.toNat (rows d n) with
  | .error f => (cleared, .error f)
  | .ok bytes =>
    let drawn := Surface.plotAll surface (points (r.get x).toNat (r.get y).toNat bytes)
    (cleared.setFlag drawn.1, .ok drawn.2)

end ChipEight.Sprite
