import ChipEight.Proofs.Guarded.Memory
import ChipEight.Proofs.Lemmas.Plots

/-!
# The framebuffer and sprites with every test made

A sprite is drawn row by row and column by column, and the coordinates of a pixel are sums with a test. The framebuffer takes their
remainders, finds the number of the pixel by a product and a sum, and tests the index of its byte. If the number of all pixels fits
its type, rounded up to whole bytes, none of the tests fails, wherever the pixel is asked for.
-/

namespace ChipEight.Guarded

variable {r : Resolution}

/-! ## Pixels -/

/-- How many bytes the pixels of a picture take. -/
def byteCount (r : Resolution) : Guarded Nat := do
  let pixels ← product addressLimit r.width r.height
  return (← sum addressLimit pixels 7) / 8

/-- The byte of a pixel and its bit there. -/
def pixel (r : Resolution) (x y : Nat) : Guarded (Nat × UInt8) := do
  let above ← product addressLimit (← remainder y r.height) r.width
  let number ← sum addressLimit above (← remainder x r.width)
  return (number / 8, ← bit (number % 8))

/-- Toggles a pixel: its byte is read, read again and written. -/
def plot (f : Framebuffer r) (x y : Nat) : Guarded (Bool × Framebuffer r) := do
  let place ← pixel r x y
  let before ← element f.bytes place.1
  let byte ← element f.bytes place.1
  let bytes ← withElement f.bytes place.1 (byte ^^^ place.2)
  return (before &&& place.2 != 0, ⟨bytes, true⟩)

/-- The size of a framebuffer does not trap if its pixels can be counted in whole bytes. -/
theorem byteCount_eq (h : r.pixelCount + 7 < addressLimit) : byteCount r = .ok r.byteCount := by
  unfold Resolution.pixelCount at h
  rw [byteCount, product_eq (by omega), ok_bind, sum_eq h]
  rfl

/-- The place of a pixel does not trap, and is the one the framebuffer uses. -/
theorem pixel_eq (h : r.pixelCount + 7 < addressLimit) (x y : Nat) :
    pixel r x y = .ok (r.pixelIndex x y / 8, Framebuffer.mask (r.pixelIndex x y)) := by
  have hlt := r.pixelIndex_lt x y
  have hindex : y % r.height * r.width + x % r.width = r.pixelIndex x y := rfl
  rw [pixel, remainder_eq r.height_pos, ok_bind, product_eq (by omega), ok_bind, remainder_eq r.width_pos, ok_bind,
    sum_eq (by omega), ok_bind, hindex, bit_eq (Nat.mod_lt _ (by decide))]
  rfl

/-- To toggle a pixel does not trap. -/
theorem plot_eq (h : r.pixelCount + 7 < addressLimit) (f : Framebuffer r) (x y : Nat) : plot f x y = .ok (f.plot x y) := by
  have hplace : r.pixelIndex x y / 8 < r.byteCount := Resolution.div_eight_lt (r.pixelIndex_lt x y)
  rw [plot, pixel_eq h, ok_bind]
  dsimp only
  rw [element_eq hplace, ok_bind, ok_bind, withElement_eq hplace]
  rfl

/-! ## Sprites -/

/-- Draws the pixels of one row that lie in some columns. -/
def drawColumns (f : Framebuffer r) (left top dy : Nat) (row : UInt8) : List Nat → Guarded (Bool × Framebuffer r)
  | [] => return (false, f)
  | dx :: rest => do
    if row &&& (← bit dx) != 0 then
      let first ← plot f (← sum addressLimit left dx) (← sum addressLimit top dy)
      let others ← drawColumns first.2 left top dy row rest
      return (first.1 || others.1, others.2)
    else drawColumns f left top dy row rest

/-- Draws rows, the first of them `dy` below the top. -/
def drawRows (f : Framebuffer r) (left top dy : Nat) : List UInt8 → Guarded (Bool × Framebuffer r)
  | [] => return (false, f)
  | row :: rest => do
    let first ← drawColumns f left top dy row (List.range 8)
    let others ← drawRows first.2 left top (← sum addressLimit dy 1) rest
    return (first.1 || others.1, others.2)

/-- Draws the sprite at the index with its corner at (Vx, Vy). -/
def draw (d : Dialect) (m : Memory) (f : Framebuffer r) (regs : Registers) (x y : Nat) (n : UInt8) :
    Guarded (Registers × Except Fault (Framebuffer r)) := do
  let left ← register regs x
  let top ← register regs y
  let cleared ← withFlag regs false
  match ← slice m regs.index.toNat (Sprite.rows d n) with
  | .error fault => return (cleared, .error fault)
  | .ok bytes =>
    let drawn ← drawRows f left.toNat top.toNat 0 bytes
    return (← withFlag cleared drawn.1, .ok drawn.2)

/-- To draw columns of a row does not trap. -/
theorem drawColumns_eq (h : r.pixelCount + 7 < addressLimit) (f : Framebuffer r) {left top dy : Nat}
    (hl : left + 8 < addressLimit) (ht : top + dy < addressLimit) (row : UInt8) {columns : List Nat}
    (hc : ∀ dx ∈ columns, dx < 8) :
    drawColumns f left top dy row columns =
      .ok (Surface.plotAll f ((columns.filter (Sprite.hasPixel row)).map fun dx => (left + dx, top + dy))) := by
  induction columns generalizing f with
  | nil => rfl
  | cons dx rest ih =>
    have hdx := hc dx (List.mem_cons_self ..)
    have hrest := fun f => ih f fun k hk => hc k (List.mem_cons_of_mem _ hk)
    rw [drawColumns, bit_eq hdx, ok_bind, Sprite.and_bit_eq_hasPixel row hdx, List.filter_cons]
    by_cases hp : Sprite.hasPixel row dx = true
    · rw [if_pos hp, if_pos hp, sum_eq (by omega), ok_bind, sum_eq ht, ok_bind, plot_eq h, ok_bind, hrest]
      rfl
    · rw [if_neg hp, if_neg hp]
      exact hrest f

/-- To draw rows does not trap. -/
theorem drawRows_eq (h : r.pixelCount + 7 < addressLimit) (f : Framebuffer r) {left top dy : Nat} {bytes : List UInt8}
    (hl : left + 8 < addressLimit) (ht : top + dy + bytes.length < addressLimit) :
    drawRows f left top dy bytes =
      .ok (Surface.plotAll f ((bytes.zipIdx dy).flatMap fun (row, dy) =>
        ((List.range 8).filter (Sprite.hasPixel row)).map fun dx => (left + dx, top + dy))) := by
  induction bytes generalizing f dy with
  | nil => rfl
  | cons row rest ih =>
    rw [List.length_cons] at ht
    rw [drawRows, drawColumns_eq h f hl (by omega) row fun _ => List.mem_range.mp, ok_bind, sum_eq (by omega), ok_bind,
      ih _ (by omega), List.zipIdx_cons, List.flatMap_cons, Surface.plotAll_append]
    rfl

/-- A sprite has at most 255 rows. -/
theorem rows_le (d : Dialect) (n : UInt8) : Sprite.rows d n ≤ 255 := by
  by_cases hn : n = 0
  · subst hn
    cases hd : d.zeroHeightIsSixteen with
    | true => exact (Sprite.rows_zero_of_sixteen hd).trans_le (by decide)
    | false => exact (Sprite.rows_zero_of_none hd).trans_le (by decide)
  · rw [Sprite.rows_of_ne_zero d hn]
    exact Nat.le_of_lt_succ n.toNat_lt

/-- To draw a sprite does not trap. -/
theorem draw_eq (h : r.pixelCount + 7 < addressLimit) (d : Dialect) (m : Memory) (f : Framebuffer r) (regs : Registers)
    (x y : Register) (n : UInt8) : draw d m f regs x.val y.val n = .ok (Sprite.draw d m f regs x y n) := by
  have hlimit : addressLimit = 0x10000000000000000 := rfl
  have hrows := rows_le d n
  have hleft := (regs.get x).toNat_lt
  have htop := (regs.get y).toNat_lt
  rw [draw, register_val, ok_bind, register_val, ok_bind, withFlag_eq, ok_bind, slice_eq, ok_bind, Sprite.draw, Memory.read_eq]
  by_cases hs : regs.index.toNat + Sprite.rows d n ≤ Memory.size
  · rw [if_pos hs]
    dsimp only
    rw [drawRows_eq h f (by omega) (by rw [List.length_map, List.length_range]; omega), ok_bind, withFlag_eq]
    rfl
  · rw [if_neg hs]
    rfl

end ChipEight.Guarded
