import ChipEight.Screen.Framebuffer
import ChipEight.Screen.Sprite
import Mathlib.Algebra.BigOperators.Group.List.Basic
import Mathlib.Algebra.Ring.Parity
import Mathlib.Data.Finset.Card
import Mathlib.Data.Finset.Prod
import Mathlib.Data.List.FinRange
import Mathlib.Data.Nat.Count

/-!
# Packed pixels

A framebuffer is seen through its bits (`Framebuffer.bit`), numbered from the top bit of the first byte on. To ask for a pixel is to
read the bit with its number, to plot one is to toggle that bit and no other, and two framebuffers with the same bits and the same
mark are the same. The count of lit pixels and the list of lit points are read off the bits in the same order, row by row.
-/

namespace ChipEight

/-- To count the numbers of a range is to count the set of them. -/
theorem countP_range (n : Nat) (p : Nat → Bool) :
    (List.range n).countP p = ((Finset.range n).filter fun i => p i = true).card := by
  rw [← Nat.count_eq_card_filter_range, Nat.count]
  simp

namespace Resolution

variable {r : Resolution}

/-- The pixels of a picture, as pairs of a column and a row. -/
def pixels (r : Resolution) : Finset (Nat × Nat) := Finset.range r.width ×ˢ Finset.range r.height

theorem mem_pixels {p : Nat × Nat} : p ∈ r.pixels ↔ p.1 < r.width ∧ p.2 < r.height := by
  simp [pixels]

/-- Inside the picture nothing wraps. -/
theorem pixelIndex_of_lt {x y : Nat} (hx : x < r.width) (hy : y < r.height) : r.pixelIndex x y = y * r.width + x := by
  rw [pixelIndex, Nat.mod_eq_of_lt hx, Nat.mod_eq_of_lt hy]

theorem pixelIndex_mod_width (r : Resolution) (x y : Nat) : r.pixelIndex x y % r.width = x % r.width := by
  rw [pixelIndex, Nat.mul_comm, Nat.mul_add_mod, Nat.mod_mod]

theorem pixelIndex_div_width (r : Resolution) (x y : Nat) : r.pixelIndex x y / r.width = y % r.height := by
  rw [pixelIndex, Nat.mul_comm, Nat.mul_add_div r.width_pos, Nat.div_eq_of_lt (Nat.mod_lt x r.width_pos), Nat.add_zero]

/-- Two points are the same pixel when both coordinates agree around the edges. -/
theorem pixelIndex_inj {x y p q : Nat} :
    r.pixelIndex x y = r.pixelIndex p q ↔ x % r.width = p % r.width ∧ y % r.height = q % r.height := by
  constructor
  · intro h
    constructor
    · rw [← r.pixelIndex_mod_width x y, h, pixelIndex_mod_width]
    · rw [← r.pixelIndex_div_width x y, h, pixelIndex_div_width]
  · rintro ⟨hx, hy⟩
    rw [pixelIndex, pixelIndex, hx, hy]

/-- A number below the count of pixels is the number of a pixel. -/
theorem pixelIndex_mod_div {i : Nat} (h : i < r.pixelCount) : r.pixelIndex (i % r.width) (i / r.width) = i := by
  have hrow : i / r.width < r.height := Nat.div_lt_of_lt_mul h
  rw [pixelIndex_of_lt (Nat.mod_lt i r.width_pos) hrow, Nat.mul_comm, Nat.div_add_mod]

/-- The numbers of the pixels, row by row. -/
theorem range_pixelCount (r : Resolution) :
    List.range r.pixelCount =
      (List.range r.height).flatMap fun y => (List.range r.width).map fun x => y * r.width + x := by
  rw [pixelCount]
  generalize r.height = rows
  induction rows with
  | zero => rfl
  | succ rows ih =>
    rw [Nat.mul_succ, List.range_add, ih, List.range_succ, List.flatMap_append]
    simp [Nat.mul_comm]

end Resolution

/-! ## Bits of bytes -/

/-- Whether a bit of some bytes is set, counted from the top bit of the first byte. Behind the last byte no bit is set. -/
def packedBit (bytes : List UInt8) (i : Nat) : Bool := (bytes[i / 8]?.getD 0).toNat.testBit (7 - i % 8)

/-- To test a byte against the mask of a column is to test the bit of the column. -/
theorem Sprite.and_bit_eq_hasPixel (row : UInt8) {dx : Nat} (h : dx < 8) :
    (row &&& (0x80 >>> UInt8.ofNat dx) != 0) = hasPixel row dx := by
  have key : ∀ (n : Fin 256) (k : Fin 8),
      (UInt8.ofNat n &&& (0x80 >>> UInt8.ofNat k) != 0) = hasPixel (UInt8.ofNat n) k := by decide +kernel
  have := key ⟨row.toNat, row.toNat_lt⟩ ⟨dx, h⟩
  rwa [UInt8.ofNat_toNat] at this

/-- A mask has the bit of its pixel and no other. -/
theorem Framebuffer.testBit_mask (i : Nat) {k : Nat} (h : k < 8) :
    (mask i).toNat.testBit (7 - k) = decide (k = i % 8) := by
  have key : ∀ j k : Fin 8, ((0x80 : UInt8) >>> UInt8.ofNat j).toNat.testBit (7 - k) = decide (k.val = j.val) := by decide
  exact key ⟨i % 8, Nat.mod_lt i (by decide)⟩ ⟨k, h⟩

/-- A byte has eight bits. -/
theorem eq_of_testBit {a b : UInt8} (h : ∀ k, k < 8 → a.toNat.testBit (7 - k) = b.toNat.testBit (7 - k)) : a = b := by
  apply UInt8.toNat_inj.mp
  apply Nat.eq_of_testBit_eq
  intro i
  by_cases hi : i < 8
  · have := h (7 - i) (by omega)
    rwa [show 7 - (7 - i) = i by omega] at this
  · have hlt : 2 ^ 8 ≤ 2 ^ i := Nat.pow_le_pow_right (by decide) (Nat.not_lt.mp hi)
    rw [Nat.testBit_lt_two_pow (a.toNat_lt.trans_le hlt), Nat.testBit_lt_two_pow (b.toNat_lt.trans_le hlt)]

/-- The bits of a byte are counted from either end. -/
theorem bitCount_eq (byte : UInt8) :
    Framebuffer.bitCount byte = (List.range 8).countP fun k => byte.toNat.testBit (7 - k) := by
  have hreverse : (List.range 8).reverse = (List.range 8).map (7 - ·) := rfl
  rw [Framebuffer.bitCount, ← List.countP_reverse, hreverse, List.countP_map]
  rfl

/-- The bits of some bytes, counted byte by byte. -/
theorem foldl_bitCount (bytes : List UInt8) :
    bytes.foldl (fun n byte => n + Framebuffer.bitCount byte) 0 =
      (List.range (8 * bytes.length)).countP (packedBit bytes) := by
  induction bytes using List.reverseRecOn with
  | nil => rfl
  | append_singleton bytes byte ih =>
    have hfront : (List.range (8 * bytes.length)).countP (packedBit (bytes ++ [byte])) =
        (List.range (8 * bytes.length)).countP (packedBit bytes) := by
      apply List.countP_congr
      intro i hi
      have hlt : i / 8 < bytes.length := Nat.div_lt_of_lt_mul (List.mem_range.mp hi)
      rw [packedBit, packedBit, List.getElem?_append_left hlt]
    have hback : (List.range 8).countP (packedBit (bytes ++ [byte]) ∘ (8 * bytes.length + ·)) =
        (List.range 8).countP fun k => byte.toNat.testBit (7 - k) := by
      apply List.countP_congr
      intro k hk
      have hk' : k < 8 := List.mem_range.mp hk
      have hdiv : (8 * bytes.length + k) / 8 = bytes.length := by omega
      have hmod : (8 * bytes.length + k) % 8 = k := by omega
      simp [packedBit, hdiv, hmod]
    rw [List.foldl_append, List.foldl_cons, List.foldl_nil, ih, bitCount_eq, List.length_append, List.length_singleton,
      Nat.mul_succ, List.range_add, List.countP_append, List.countP_map, hfront, hback]

/-! ## Bits of a framebuffer -/

namespace Framebuffer

variable {r : Resolution}

/-- Whether a bit of a framebuffer is set: the pixels in the order of their numbers, and behind them the bits to spare. -/
def bit (f : Framebuffer r) (i : Nat) : Bool := packedBit f.bytes.toList i

theorem isSet_eq_bit (f : Framebuffer r) (x y : Nat) : f.isSet x y = f.bit (r.pixelIndex x y) := by
  have hplace : r.pixelIndex x y / 8 < r.byteCount := Resolution.div_eight_lt (r.pixelIndex_lt x y)
  rw [isSet, mask, Sprite.and_bit_eq_hasPixel _ (Nat.mod_lt _ (by decide)), bit, packedBit, Vector.getElem?_toList,
    Vector.getElem?_eq_getElem hplace]
  rfl

@[simp] theorem bit_blank (r : Resolution) (i : Nat) : (blank r).bit i = false := by
  rw [bit, packedBit, blank, Vector.getElem?_toList, Vector.getElem?_replicate]
  split <;> exact Nat.zero_testBit _

/-- A plot toggles the bit of its pixel and no other. -/
theorem bit_plot (f : Framebuffer r) (x y i : Nat) :
    (f.plot x y).2.bit i = (f.bit i ^^ decide (i = r.pixelIndex x y)) := by
  have hplace : r.pixelIndex x y / 8 < r.byteCount := Resolution.div_eight_lt (r.pixelIndex_lt x y)
  rw [bit, bit, packedBit, packedBit, plot, Vector.getElem?_toList, Vector.getElem?_toList, Vector.getElem?_set hplace]
  by_cases hbyte : r.pixelIndex x y / 8 = i / 8
  · have hsame : i = r.pixelIndex x y ↔ i % 8 = r.pixelIndex x y % 8 := by omega
    rw [if_pos hbyte, ← hbyte, Vector.getElem?_eq_getElem hplace, Option.getD_some, Option.getD_some, UInt8.toNat_xor,
      Nat.testBit_xor, testBit_mask _ (Nat.mod_lt i (by decide))]
    simp only [hsame]
  · have hne : i ≠ r.pixelIndex x y := by
      intro h
      exact hbyte (by rw [h])
    rw [if_neg hbyte, decide_eq_false hne, Bool.xor_false]

@[simp] theorem dirty_plot (f : Framebuffer r) (x y : Nat) : (f.plot x y).2.dirty = true := rfl

/-- What a plot makes of the pixels. -/
theorem isSet_plot (f : Framebuffer r) (x y p q : Nat) :
    (f.plot x y).2.isSet p q =
      (f.isSet p q ^^ decide (x % r.width = p % r.width ∧ y % r.height = q % r.height)) := by
  rw [isSet_eq_bit, isSet_eq_bit, bit_plot]
  simp only [← Resolution.pixelIndex_inj, eq_comm]

/-- The bytes of a framebuffer are its bits. -/
theorem bytes_ext_bit {f g : Framebuffer r} (h : ∀ i, f.bit i = g.bit i) : f.bytes = g.bytes := by
  ext k hk
  rw [UInt8.toNat_inj]
  apply eq_of_testBit
  intro j hj
  have hdiv : (8 * k + j) / 8 = k := by omega
  have hmod : (8 * k + j) % 8 = j := by omega
  have := h (8 * k + j)
  simpa [bit, packedBit, hdiv, hmod, hk] using this

/-- A framebuffer is its bits and its mark. -/
theorem ext_bit {f g : Framebuffer r} (hbit : ∀ i, f.bit i = g.bit i) (hdirty : f.dirty = g.dirty) : f = g := by
  have hbytes := bytes_ext_bit hbit
  cases f
  cases g
  cases hbytes
  cases hdirty
  rfl

/-! ## The two ways to read the bits -/

/-- The count of lit pixels is a count of bits. -/
theorem litCount_eq_countP (f : Framebuffer r) : f.litCount = (List.range (8 * r.byteCount)).countP f.bit := by
  rw [litCount, foldl_bitCount, Vector.length_toList]
  rfl

/-- If no bit to spare is set, the count of lit pixels counts the pixels that are set. -/
theorem litCount_eq_card {f : Framebuffer r} (h : ∀ i, r.pixelCount ≤ i → f.bit i = false) :
    f.litCount = (r.pixels.filter fun p => f.isSet p.1 p.2).card := by
  have hsplit : 8 * r.byteCount = r.pixelCount + (8 * r.byteCount - r.pixelCount) := by
    unfold Resolution.byteCount
    omega
  have hspare : (List.range (8 * r.byteCount - r.pixelCount)).countP (f.bit ∘ (r.pixelCount + ·)) = 0 := by
    rw [List.countP_eq_zero]
    intro i _
    simp [h]
  rw [litCount_eq_countP, hsplit, List.range_add, List.countP_append, List.countP_map, hspare, Nat.add_zero, countP_range]
  apply Finset.card_nbij' (fun i => (i % r.width, i / r.width)) fun p => r.pixelIndex p.1 p.2
  · intro i hi
    simp at hi
    simp [Resolution.mem_pixels, isSet_eq_bit, Resolution.pixelIndex_mod_div hi.1, hi.2, Nat.mod_lt i r.width_pos,
      Nat.div_lt_of_lt_mul hi.1]
  · intro p hp
    simp [isSet_eq_bit] at hp
    simp [r.pixelIndex_lt, hp.2]
  · intro i hi
    simp at hi
    exact Resolution.pixelIndex_mod_div hi.1
  · rintro ⟨x, y⟩ hp
    simp [Resolution.mem_pixels] at hp
    simp [r.pixelIndex_mod_width, r.pixelIndex_div_width, Nat.mod_eq_of_lt hp.1.1, Nat.mod_eq_of_lt hp.1.2]

/-- The list of lit points is read off the bits in the order of their numbers. -/
theorem litPoints_eq_filterMap (f : Framebuffer r) :
    r.litPoints f.bytes =
      (List.range r.pixelCount).filterMap fun i =>
        if f.bit i then some (((i % r.width : Nat) : Int), -((i / r.width : Nat) : Int)) else none := by
  rw [← List.map_coe_finRange_eq_range, List.filterMap_map, Resolution.litPoints]
  apply List.filterMap_congr
  intro i _
  have hplace : i.val / 8 < r.byteCount := Resolution.div_eight_lt i.isLt
  have hbit : f.bit i = f.bytes[i.val / 8].toNat.testBit (7 - i.val % 8) := by
    rw [bit, packedBit, Vector.getElem?_toList, Vector.getElem?_eq_getElem hplace]
    rfl
  simp [hbit, Nat.testBit_eq_decide_div_mod_eq, Nat.shiftRight_eq_div_pow]

/-- The list of lit points goes through the pixels that are set, row by row. -/
theorem litPoints_eq (f : Framebuffer r) :
    r.litPoints f.bytes =
      (List.range r.height).flatMap fun y =>
        ((List.range r.width).filter fun x => f.isSet x y).map fun x : Nat => ((x : Int), -(y : Int)) := by
  rw [litPoints_eq_filterMap, Resolution.range_pixelCount, List.filterMap_flatMap]
  apply List.flatMap_congr
  intro y hy
  rw [List.filterMap_map, ← List.filterMap_eq_map, List.filterMap_filter]
  apply List.filterMap_congr
  intro x hx
  have hindex : y * r.width + x = r.pixelIndex x y :=
    (Resolution.pixelIndex_of_lt (List.mem_range.mp hx) (List.mem_range.mp hy)).symm
  simp only [Function.comp_apply, hindex, isSet_eq_bit, r.pixelIndex_mod_width, r.pixelIndex_div_width,
    Nat.mod_eq_of_lt (List.mem_range.mp hx), Nat.mod_eq_of_lt (List.mem_range.mp hy)]

/-- The point of a pixel is among them if the pixel is set. -/
theorem mem_litPoints_iff (f : Framebuffer r) {x y : Nat} (hx : x < r.width) (hy : y < r.height) :
    ((x : Int), -(y : Int)) ∈ r.litPoints f.bytes ↔ f.isSet x y = true := by
  rw [litPoints_eq, List.mem_flatMap]
  constructor
  · rintro ⟨row, -, hrow⟩
    obtain ⟨column, hcolumn, hpoint⟩ := List.mem_map.mp hrow
    obtain ⟨hfirst, hsecond⟩ := Prod.mk.inj hpoint
    obtain rfl : column = x := by omega
    obtain rfl : row = y := by omega
    exact (List.mem_filter.mp hcolumn).2
  · intro hset
    have hcolumn : x ∈ (List.range r.width).filter fun x => f.isSet x y := List.mem_filter.mpr ⟨List.mem_range.mpr hx, hset⟩
    exact ⟨y, List.mem_range.mpr hy, List.mem_map.mpr ⟨x, hcolumn, rfl⟩⟩

end Framebuffer

end ChipEight
