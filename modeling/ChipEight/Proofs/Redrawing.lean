import ChipEight.Proofs.Blit
import Mathlib.Data.Nat.ModEq

/-!
# Drawing toggles

Sprites that lie in memory can be drawn in any order, and drawn a second time they take themselves away: each toggles the pixels it
covers, whatever is on the picture and however the sprites overlap. The flag does depend on what was there. A sprite that covers no
pixel twice collides when one of its pixels was lit, and drawn once more it collides when one was not.
-/

namespace ChipEight.Sprite

variable {r : Resolution}

/-- A sprite that is to be drawn: the registers it is drawn with, the two that hold its corner, and its height. -/
structure Drawing where
  registers : Registers
  x : Register
  y : Register
  n : UInt8

/-- That a sprite ends in memory. -/
def Drawing.Fits (d : Dialect) (a : Drawing) : Prop := a.registers.index.toNat + rows d a.n ≤ 0x10000

/-- That one of the bits of a sprite lands on a pixel. -/
def Drawing.Covers (r : Resolution) (d : Dialect) (m : Memory) (a : Drawing) (p q : Nat) : Prop :=
  (strikes r m a.registers.index.toNat (rows d a.n) (a.registers.get a.x).toNat (a.registers.get a.y).toNat p q).Nonempty

/-- Draws sprites one after the other. The first that cannot be drawn ends it. -/
def drawAll (d : Dialect) (m : Memory) (f : Framebuffer r) : List Drawing → Except Fault (Framebuffer r)
  | [] => .ok f
  | a :: rest => do
    let f ← (draw d m f a.registers a.x a.y a.n).2
    drawAll d m f rest

/-- The points that a sprite touches. -/
def Drawing.points (d : Dialect) (m : Memory) (a : Drawing) : List (Nat × Nat) := touched d m a.registers a.x a.y a.n

/-- To draw sprites is to plot the points of all of them. -/
theorem drawAll_eq_plotAll (d : Dialect) (m : Memory) (f : Framebuffer r) {draws : List Drawing}
    (h : ∀ a ∈ draws, a.Fits d) :
    drawAll d m f draws = .ok (Surface.plotAll f (draws.flatMap (Drawing.points d m))).2 := by
  induction draws generalizing f with
  | nil => rfl
  | cons a rest ih =>
    have hfirst : a.Fits d := h a (by simp)
    have hrest : ∀ b ∈ rest, b.Fits d := by
      intro b hb
      exact h b (by simp [hb])
    rw [drawAll, draw_eq_plotAll d m f a.registers a.x a.y a.n hfirst, List.flatMap_cons, Surface.plotAll_append]
    exact ih _ hrest

/-- A sprite covers a pixel with one bit only if the picture is not smaller than the sprite. -/
theorem card_strikes_le_one {m : Memory} {address rows left top p q : Nat} (hw : 8 ≤ r.width) (hh : rows ≤ r.height) :
    (strikes r m address rows left top p q).card ≤ 1 := by
  have hcancel : ∀ {size corner a b : Nat}, a < size → b < size → (corner + a) % size = (corner + b) % size → a = b := by
    intro size corner a b ha hb h
    exact (Nat.ModEq.add_left_cancel' corner h).eq_of_lt_of_lt ha hb
  rw [Finset.card_le_one]
  intro a ha b hb
  obtain ⟨⟨hax, hay⟩, -, hap, haq⟩ := mem_strikes.mp ha
  obtain ⟨⟨hbx, hby⟩, -, hbp, hbq⟩ := mem_strikes.mp hb
  have hcolumn := hcancel (hax.trans_le hw) (hbx.trans_le hw) (hap.trans hbp.symm)
  have hrow := hcancel (hay.trans_le hh) (hby.trans_le hh) (haq.trans hbq.symm)
  exact Prod.ext hcolumn hrow

/-- Only pixels are covered. -/
theorem lt_of_strikes {m : Memory} {address rows left top p q : Nat}
    (h : (strikes r m address rows left top p q).Nonempty) : p < r.width ∧ q < r.height := by
  obtain ⟨b, hb⟩ := h
  obtain ⟨-, -, rfl, rfl⟩ := mem_strikes.mp hb
  exact ⟨Nat.mod_lt _ r.width_pos, Nat.mod_lt _ r.height_pos⟩

/-- On a picture that is not smaller than the sprite, the flag says that a covered pixel was lit. -/
theorem Blit.flag_iff {m : Memory} {address rows left top : Nat} {f after : Framebuffer r} {flag : Bool}
    (h : Blit m address rows left top f after flag) (hw : 8 ≤ r.width) (hh : rows ≤ r.height) :
    flag = true ↔ ∃ p q, (strikes r m address rows left top p q).Nonempty ∧ f.isSet p q = true := by
  rw [h.flag]
  constructor
  · rintro ⟨p, q, -, hlit | htwice⟩
    · exact ⟨p, q, hlit⟩
    · have hone : (strikes r m address rows left top p q).card ≤ 1 := card_strikes_le_one hw hh
      omega
  · rintro ⟨p, q, hlit⟩
    exact ⟨p, q, lt_of_strikes hlit.1, .inl hlit⟩

/-- On a picture that is not smaller than the sprite, a covered pixel is toggled. -/
theorem Blit.isSet_of_strikes {m : Memory} {address rows left top : Nat} {f after : Framebuffer r} {flag : Bool}
    (h : Blit m address rows left top f after flag) (hw : 8 ≤ r.width) (hh : rows ≤ r.height) {p q : Nat}
    (hpq : (strikes r m address rows left top p q).Nonempty) : after.isSet p q = !f.isSet p q := by
  have hone : (strikes r m address rows left top p q).card = 1 :=
    Nat.le_antisymm (card_strikes_le_one hw hh) (Finset.card_pos.mpr hpq)
  obtain ⟨hp, hq⟩ := lt_of_strikes hpq
  rw [h.pixel p q hp hq, hone]
  simp

/-- A sprite drawn twice on a picture that is not smaller than it, with its corner in other registers than VF. -/
theorem flags_of_redraw (d : Dialect) (m : Memory) (f : Framebuffer r) {a : Drawing} (hfits : a.Fits d)
    (hx : a.x ≠ flagRegister) (hy : a.y ≠ flagRegister) (hw : 8 ≤ r.width) (hh : rows d a.n ≤ r.height) :
    ∃ v after v' again,
      draw d m f a.registers a.x a.y a.n = (v, .ok after) ∧ draw d m after v a.x a.y a.n = (v', .ok again) ∧
      (v.get flagRegister = 1 ↔ ∃ p q, a.Covers r d m p q ∧ f.isSet p q = true) ∧
      (v'.get flagRegister = 1 ↔ ∃ p q, a.Covers r d m p q ∧ f.isSet p q = false) := by
  obtain ⟨flag, after, hdraw, hblit⟩ := draw_of_fits d m f a.registers a.x a.y a.n hfits
  obtain ⟨flag', again, hredraw, hreblit⟩ :=
    draw_of_fits d m after (a.registers.setFlag flag) a.x a.y a.n hfits
  rw [Registers.get_setFlag_of_ne _ _ hx, Registers.get_setFlag_of_ne _ _ hy, Registers.index_setFlag] at hreblit
  refine ⟨_, after, _, again, hdraw, hredraw, ?_, ?_⟩
  · rw [Registers.get_flag_setFlag, hblit.flag_iff hw hh]
    rfl
  · rw [Registers.get_flag_setFlag, hreblit.flag_iff hw hh]
    constructor
    · rintro ⟨p, q, hpq, hlit⟩
      rw [hblit.isSet_of_strikes hw hh hpq, Bool.not_eq_true'] at hlit
      exact ⟨p, q, hpq, hlit⟩
    · rintro ⟨p, q, hpq, hunlit⟩
      refine ⟨p, q, hpq, ?_⟩
      rw [hblit.isSet_of_strikes hw hh hpq, hunlit]
      rfl

/-- Sprites toggle. From any framebuffer, a list of sprites that lie in memory is drawn whole, in every order with the same outcome;
to draw the list twice brings the bytes back; and for one sprite that does not wrap onto itself the flags of two draws in a row say
whether a covered pixel was lit before, and whether one was not. -/
theorem drawing_toggles (d : Dialect) (m : Memory) (f : Framebuffer r) :
    (∀ draws others : List Drawing, (∀ a ∈ draws, a.Fits d) → draws.Perm others →
      ∃ after, drawAll d m f draws = .ok after ∧ drawAll d m f others = .ok after) ∧
    (∀ draws : List Drawing, (∀ a ∈ draws, a.Fits d) →
      ∃ after, drawAll d m f (draws ++ draws) = .ok after ∧ after.bytes = f.bytes) ∧
    ∀ a : Drawing, a.Fits d → a.x ≠ flagRegister → a.y ≠ flagRegister → 8 ≤ r.width → rows d a.n ≤ r.height →
      ∃ v after v' again,
        draw d m f a.registers a.x a.y a.n = (v, .ok after) ∧ draw d m after v a.x a.y a.n = (v', .ok again) ∧
        (v.get flagRegister = 1 ↔ ∃ p q, a.Covers r d m p q ∧ f.isSet p q = true) ∧
        (v'.get flagRegister = 1 ↔ ∃ p q, a.Covers r d m p q ∧ f.isSet p q = false) := by
  refine ⟨?_, ?_, ?_⟩
  · intro draws others hfits hperm
    have hothers : ∀ a ∈ others, a.Fits d := by
      intro a ha
      exact hfits a (hperm.mem_iff.mpr ha)
    refine ⟨_, drawAll_eq_plotAll d m f hfits, ?_⟩
    rw [drawAll_eq_plotAll d m f hothers, Framebuffer.plotAll_perm f (hperm.flatMap_right _)]
  · intro draws hfits
    have htwice : ∀ a ∈ draws ++ draws, a.Fits d := by
      intro a ha
      rw [List.mem_append, or_self] at ha
      exact hfits a ha
    refine ⟨_, drawAll_eq_plotAll d m f htwice, ?_⟩
    rw [List.flatMap_append, Framebuffer.bytes_plotAll_twice]
  · intro a hfits hx hy hw hh
    exact flags_of_redraw d m f hfits hx hy hw hh

/-- The glyph of a digit in the top left corner. -/
def glyphOf (digit : UInt8) : Drawing :=
  ⟨(Registers.start Memory.programStart).setIndex (Font.glyphAddress digit), firstRegister, firstRegister, 5⟩

/-- The glyphs of 0 and 1 over each other, in either order and twice, and the glyph of 0 redrawn. -/
theorem drawing_toggles_glyphs :
    ((glyphOf 0).Fits .standard ∧ (glyphOf 1).Fits .standard) ∧
    (∃ after, drawAll .standard .fresh (Framebuffer.blank .standard) [glyphOf 0, glyphOf 1] = .ok after ∧
      drawAll .standard .fresh (Framebuffer.blank .standard) [glyphOf 1, glyphOf 0] = .ok after) ∧
    (∃ after, drawAll .standard .fresh (Framebuffer.blank .standard) ([glyphOf 0, glyphOf 1] ++ [glyphOf 0, glyphOf 1]) = .ok after ∧
      after.bytes = (Framebuffer.blank .standard).bytes) ∧
    ∃ v after v' again,
      draw .standard .fresh (Framebuffer.blank .standard) (glyphOf 0).registers firstRegister firstRegister 5 = (v, .ok after) ∧
      draw .standard .fresh after v firstRegister firstRegister 5 = (v', .ok again) ∧
      (v.get flagRegister = 1 ↔ ∃ p q, (glyphOf 0).Covers .standard .standard .fresh p q ∧
        (Framebuffer.blank .standard).isSet p q = true) ∧
      (v'.get flagRegister = 1 ↔ ∃ p q, (glyphOf 0).Covers .standard .standard .fresh p q ∧
        (Framebuffer.blank .standard).isSet p q = false) := by
  have hzero : (glyphOf 0).Fits .standard := by unfold Drawing.Fits; decide
  have hone : (glyphOf 1).Fits .standard := by unfold Drawing.Fits; decide
  have hboth : ∀ a ∈ [glyphOf 0, glyphOf 1], a.Fits .standard := by
    intro a ha
    simp only [List.mem_cons, List.not_mem_nil, or_false] at ha
    rcases ha with rfl | rfl
    · exact hzero
    · exact hone
  obtain ⟨horder, htwice, hredraw⟩ := drawing_toggles .standard .fresh (Framebuffer.blank .standard)
  exact ⟨⟨hzero, hone⟩, horder _ _ hboth (List.Perm.swap _ _ _), htwice _ hboth,
    hredraw (glyphOf 0) hzero (by decide) (by decide) (by decide) (by decide)⟩

end ChipEight.Sprite
