import ChipEight.Proofs.Lemmas.Plots
import ChipEight.Proofs.Lemmas.Memory
import ChipEight.Proofs.Lemmas.Registers
import ChipEight.Session.Step

/-!
# What a sprite does to a framebuffer

A sprite toggles the pixels that an odd number of its bits land on (`Sprite.Blit`). On a small picture several bits can land on one
pixel, and then the sprite collides with itself: the flag says that a pixel was lit before or was hit more than once. A sprite that
does not lie in memory draws nothing. A sprite of height 0 is one of height 16, or draws nothing, as the dialect says.
-/

namespace ChipEight

namespace Sprite

variable {r : Resolution}

/-- What a sprite makes of a framebuffer and of the flag, pixel by pixel. It lies in memory from an address on, and its corner is at
(left, top). -/
structure Blit (m : Memory) (address rows left top : Nat) (f after : Framebuffer r) (flag : Bool) : Prop where
  /-- A pixel is toggled when the bits that hit it are odd in number. -/
  pixel : ∀ p q, p < r.width → q < r.height →
    after.isSet p q = (f.isSet p q ^^ decide (Odd (strikes r m address rows left top p q).card))
  /-- The bits behind the last pixel stay as they were. -/
  spare : ∀ i, r.width * r.height ≤ i → after.bit i = f.bit i
  /-- The flag says that a pixel that is hit was lit before, or that a pixel is hit at least twice. -/
  flag : flag = true ↔ ∃ p q, (p < r.width ∧ q < r.height) ∧
    ((strikes r m address rows left top p q).Nonempty ∧ f.isSet p q = true ∨
      2 ≤ (strikes r m address rows left top p q).card)
  /-- The framebuffer is marked if the sprite has a set bit, and otherwise it keeps its mark. -/
  dirty : after.dirty = true ↔
    f.dirty = true ∨ ∃ dx dy, (dx < 8 ∧ dy < rows) ∧ (m.peek (address + dy)).toNat.testBit (7 - dx) = true

/-- A sprite has a point for each of its set bits. -/
theorem points_ne_nil_iff (left top : Nat) (row : Nat → UInt8) (rows : Nat) :
    points left top ((List.range rows).map row) ≠ [] ↔
      ∃ dx dy, (dx < 8 ∧ dy < rows) ∧ (row dy).toNat.testBit (7 - dx) = true := by
  rw [points_map_range, ne_eq, List.flatMap_eq_nil_iff]
  simp only [List.map_eq_nil_iff, List.filter_eq_nil_iff, List.mem_range, hasPixel, not_forall, not_not]
  constructor
  · rintro ⟨dy, hdy, dx, hdx, hbit⟩
    exact ⟨dx, dy, ⟨hdx, hdy⟩, hbit⟩
  · rintro ⟨dx, dy, ⟨hdx, hdy⟩, hbit⟩
    exact ⟨dy, hdy, dx, hdx, hbit⟩

/-- To plot the points of a sprite is to blit it. -/
theorem blit_plotAll (m : Memory) (address rows left top : Nat) (f : Framebuffer r) :
    Blit m address rows left top f
      (Surface.plotAll f (points left top ((List.range rows).map fun dy => m.peek (address + dy)))).2
      (Surface.plotAll f (points left top ((List.range rows).map fun dy => m.peek (address + dy)))).1 where
  pixel := by
    intro p q hp hq
    rw [Framebuffer.isSet_eq_bit, Framebuffer.isSet_eq_bit, Framebuffer.bit_plotAll, hits_points m address rows left top hp hq]
  spare := by
    intro i hi
    have hnone : r.hits (points left top ((List.range rows).map fun dy => m.peek (address + dy))) i = 0 := by
      by_contra hpos
      have hlt := Resolution.lt_of_hits_pos (Nat.pos_of_ne_zero hpos)
      unfold Resolution.pixelCount at hlt
      omega
    simp [Framebuffer.bit_plotAll, hnone]
  flag := by
    rw [Framebuffer.plotAll_collides_iff]
    constructor
    · rintro ⟨i, hi⟩
      have hlt : i < r.pixelCount := by
        apply Resolution.lt_of_hits_pos
        rcases hi with ⟨hpos, -⟩ | htwice
        · exact hpos
        · exact Nat.lt_of_lt_of_le Nat.zero_lt_two htwice
      have hrow : i / r.width < r.height := Nat.div_lt_of_lt_mul hlt
      have hcolumn : i % r.width < r.width := Nat.mod_lt i r.width_pos
      rw [← Resolution.pixelIndex_mod_div hlt, hits_points m address rows left top hcolumn hrow,
        ← Framebuffer.isSet_eq_bit, Finset.card_pos] at hi
      exact ⟨_, _, ⟨hcolumn, hrow⟩, hi⟩
    · rintro ⟨p, q, ⟨hp, hq⟩, hpq⟩
      refine ⟨r.pixelIndex p q, ?_⟩
      rwa [hits_points m address rows left top hp hq, ← Framebuffer.isSet_eq_bit, Finset.card_pos]
  dirty := by
    rw [Framebuffer.dirty_plotAll, points_ne_nil_iff]

/-- The points that a sprite touches, read off the memory. -/
def touched (d : Dialect) (m : Memory) (v : Registers) (x y : Register) (n : UInt8) : List (Nat × Nat) :=
  points (v.get x).toNat (v.get y).toNat ((List.range (rows d n)).map fun dy => m.peek (v.index.toNat + dy))

/-- To draw a sprite that lies in memory is to plot its points. -/
theorem draw_eq_plotAll (d : Dialect) (m : Memory) (f : Framebuffer r) (v : Registers) (x y : Register) (n : UInt8)
    (h : v.index.toNat + rows d n ≤ 0x10000) :
    draw d m f v x y n =
      (v.setFlag (Surface.plotAll f (touched d m v x y n)).1, .ok (Surface.plotAll f (touched d m v x y n)).2) := by
  have hfits : v.index.toNat + rows d n ≤ Memory.size := h
  rw [draw, Memory.read_eq, if_pos hfits]
  dsimp only
  rw [Registers.setFlag_setFlag]
  rfl

/-- A sprite that lies in memory is drawn. -/
theorem draw_of_fits (d : Dialect) (m : Memory) (f : Framebuffer r) (v : Registers) (x y : Register) (n : UInt8)
    (h : v.index.toNat + rows d n ≤ 0x10000) :
    ∃ flag after, draw d m f v x y n = (v.setFlag flag, .ok after) ∧
      Blit m v.index.toNat (rows d n) (v.get x).toNat (v.get y).toNat f after flag :=
  ⟨_, _, draw_eq_plotAll d m f v x y n h, blit_plotAll _ _ _ _ _ f⟩

/-- A sprite that does not lie in memory is not drawn. -/
theorem draw_of_not_fits (d : Dialect) (m : Memory) (f : Framebuffer r) (v : Registers) (x y : Register) (n : UInt8)
    (h : ¬v.index.toNat + rows d n ≤ 0x10000) :
    draw d m f v x y n = (v.setFlag false, .error (.outOfRange 0x10000)) := by
  have hmiss : ¬v.index.toNat + rows d n ≤ Memory.size := h
  have hindex : max v.index.toNat Memory.size = 0x10000 := Nat.max_eq_right (Nat.le_of_lt v.index.toNat_lt)
  rw [draw, Memory.read_eq, if_neg hmiss, hindex]

/-! ## Height 0 -/

section

variable {σ : Type} [Surface σ] {d : Dialect} (m : Memory) (surface : σ) (v : Registers) (x y : Register)

/-- Where a sprite of height 0 has sixteen rows, it is drawn like one of height 16. -/
theorem draw_zero_of_sixteen (h : d.zeroHeightIsSixteen = true) :
    draw d m surface v x y 0 = draw d m surface v x y 16 := by
  have hrows : rows d 16 = 16 := rows_of_ne_zero d (by decide)
  rw [draw, draw, rows_zero_of_sixteen h, hrows]

/-- Where it has no rows, nothing is drawn and the flag is cleared, wherever the index is. -/
theorem draw_zero_of_none (h : d.zeroHeightIsSixteen = false) :
    draw d m surface v x y 0 = (v.setFlag false, .ok surface) := by
  have hfits : v.index.toNat + 0 ≤ Memory.size := Nat.le_of_lt v.index.toNat_lt
  rw [draw, rows_zero_of_none h, Memory.read_eq, if_pos hfits]
  dsimp only
  rw [Registers.setFlag_setFlag]
  rfl

end

end Sprite

namespace Session

variable {r : Resolution}

/-- Dxyn on any framebuffer, from any memory and with any registers. If the sprite ends in memory, it is drawn pixel by pixel, and
beside the framebuffer only VF changes; the corner is read before VF is written. If not, the framebuffer is not touched, and the fault
names the end of memory. -/
theorem draw_blits (s : Session (Framebuffer r)) (address : UInt16) (latched : Option Keypress) (x y : Register) (n : UInt8) :
    if s.registers.index.toNat + Sprite.rows s.dialect n ≤ 0x10000 then
      ∃ flag after,
        Sprite.draw s.dialect s.memory s.surface s.registers x y n =
          (s.registers.set flagRegister (if flag then 1 else 0), .ok after) ∧
        s.execute address latched (.draw x y n) =
          .proceed { s with registers := s.registers.set flagRegister (if flag then 1 else 0), surface := after } ∧
        Sprite.Blit s.memory s.registers.index.toNat (Sprite.rows s.dialect n) (s.registers.get x).toNat
          (s.registers.get y).toNat s.surface after flag
    else
      Sprite.draw s.dialect s.memory s.surface s.registers x y n =
        (s.registers.set flagRegister 0, .error (.outOfRange 0x10000)) ∧
      s.execute address latched (.draw x y n) =
        .stop { s with registers := s.registers.set flagRegister 0 } (.fault (.outOfRange 0x10000)) := by
  split
  · rename_i hfits
    obtain ⟨flag, after, hdraw, hblit⟩ := Sprite.draw_of_fits s.dialect s.memory s.surface s.registers x y n hfits
    refine ⟨flag, after, hdraw, ?_, hblit⟩
    rw [execute, hdraw]
    rfl
  · rename_i hmiss
    have hdraw := Sprite.draw_of_not_fits s.dialect s.memory s.surface s.registers x y n hmiss
    refine ⟨hdraw, ?_⟩
    rw [execute, hdraw]
    rfl

/-- Dxy0 on a column of sixteen pixels draws all of it, or nothing. -/
example :
    let column (d : Dialect) : Session (Framebuffer .standard) :=
      { fresh d (.ofSeed 0) (.blank .standard) with
        memory := Memory.fresh.pokeAll 0x200 (List.replicate 16 0x80)
        registers := (Registers.start 0x200).setIndex 0x200 }
    let drawn (d : Dialect) := ((column d).execute 0x200 none (.draw 0 1 0)).session.surface
    (drawn .standard).isSet 0 15 = true ∧ (drawn .standard).litCount = 16 ∧ (drawn .cosmac).litCount = 0 := by
  decide +kernel

end Session

end ChipEight
