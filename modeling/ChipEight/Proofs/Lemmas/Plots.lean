import ChipEight.Proofs.Lemmas.Pixels
import Mathlib.Algebra.BigOperators.Group.Finset.Piecewise
import Mathlib.Algebra.BigOperators.Group.Finset.Sigma

/-!
# Many plots in a row

What a run of plots makes of a framebuffer depends only on how often each pixel is hit (`Resolution.hits`): a pixel is toggled when it
is hit an odd number of times, and a plot finds its pixel lit when the pixel was lit before the run or is hit more than once. The
points of a sprite hit a pixel as often as the sprite has set bits that land on it.
-/

namespace ChipEight

/-- How many of some points are a pixel, around the edges. -/
def Resolution.hits (r : Resolution) (points : List (Nat × Nat)) (i : Nat) : Nat :=
  (points.map fun p => r.pixelIndex p.1 p.2).count i

namespace Resolution

variable {r : Resolution}

@[simp] theorem hits_nil (i : Nat) : r.hits [] i = 0 := rfl

theorem hits_cons (p : Nat × Nat) (rest : List (Nat × Nat)) (i : Nat) :
    r.hits (p :: rest) i = r.hits rest i + if r.pixelIndex p.1 p.2 = i then 1 else 0 := by
  simp [hits, List.count_cons]

theorem hits_append (ps qs : List (Nat × Nat)) (i : Nat) : r.hits (ps ++ qs) i = r.hits ps i + r.hits qs i := by
  simp [hits]

/-- The order of the points does not matter. -/
theorem hits_perm {ps qs : List (Nat × Nat)} (h : ps.Perm qs) (i : Nat) : r.hits ps i = r.hits qs i :=
  (h.map _).count_eq i

theorem hits_flatMap {α : Type} (l : List α) (g : α → List (Nat × Nat)) (i : Nat) :
    r.hits (l.flatMap g) i = (l.map fun a => r.hits (g a) i).sum := by
  induction l with
  | nil => rfl
  | cons a rest ih => simp [hits_append, ih]

theorem hits_map_filter {α : Type} (l : List α) (b : α → Bool) (g : α → Nat × Nat) (i : Nat) :
    r.hits ((l.filter b).map g) i = l.countP fun a => b a && decide (r.pixelIndex (g a).1 (g a).2 = i) := by
  rw [hits, List.count, List.countP_map, List.countP_map, List.countP_filter]
  apply List.countP_congr
  intro a _
  simp [and_comm]

/-- Only pixels are hit. -/
theorem lt_of_hits_pos {ps : List (Nat × Nat)} {i : Nat} (h : 0 < r.hits ps i) : i < r.pixelCount := by
  obtain ⟨p, -, rfl⟩ := List.mem_map.mp (List.count_pos_iff.mp h)
  exact r.pixelIndex_lt p.1 p.2

end Resolution

/-! ## Plots -/

/-- Points are plotted one run after the other. -/
theorem Surface.plotAll_append {σ : Type} [Surface σ] (s : σ) (ps qs : List (Nat × Nat)) :
    plotAll s (ps ++ qs) =
      ((plotAll s ps).1 || (plotAll (plotAll s ps).2 qs).1, (plotAll (plotAll s ps).2 qs).2) := by
  induction ps generalizing s with
  | nil => rfl
  | cons p rest ih => simp only [List.cons_append, plotAll, ih, Bool.or_assoc]

namespace Framebuffer

variable {r : Resolution}

theorem plotAll_cons (f : Framebuffer r) (p : Nat × Nat) (rest : List (Nat × Nat)) :
    Surface.plotAll f (p :: rest) =
      (f.isSet p.1 p.2 || (Surface.plotAll (f.plot p.1 p.2).2 rest).1, (Surface.plotAll (f.plot p.1 p.2).2 rest).2) := rfl

/-- A run of plots toggles the bits that are hit an odd number of times. -/
theorem bit_plotAll (f : Framebuffer r) (ps : List (Nat × Nat)) (i : Nat) :
    (Surface.plotAll f ps).2.bit i = (f.bit i ^^ decide (Odd (r.hits ps i))) := by
  induction ps generalizing f with
  | nil => simp [Surface.plotAll]
  | cons p rest ih =>
    rw [plotAll_cons, ih, bit_plot, Resolution.hits_cons]
    by_cases h : r.pixelIndex p.1 p.2 = i
    · by_cases hodd : Odd (r.hits rest i) <;> simp [h, Nat.odd_add_one, hodd]
    · have hne : i ≠ r.pixelIndex p.1 p.2 := Ne.symm h
      simp [h, hne]

/-- A run of plots marks the framebuffer if there is a plot in it. -/
theorem dirty_plotAll (f : Framebuffer r) (ps : List (Nat × Nat)) :
    (Surface.plotAll f ps).2.dirty = true ↔ f.dirty = true ∨ ps ≠ [] := by
  induction ps generalizing f with
  | nil => simp [Surface.plotAll]
  | cons p rest ih => simp [plotAll_cons, ih]

/-- One of some plots finds its pixel lit when a pixel they hit was lit before, or when they hit one more than once. -/
theorem plotAll_collides_iff (f : Framebuffer r) (ps : List (Nat × Nat)) :
    (Surface.plotAll f ps).1 = true ↔ ∃ i, 0 < r.hits ps i ∧ f.bit i = true ∨ 2 ≤ r.hits ps i := by
  induction ps generalizing f with
  | nil => simp [Surface.plotAll]
  | cons p rest ih =>
    rw [plotAll_cons, Bool.or_eq_true, ih, isSet_eq_bit]
    simp only [bit_plot, Resolution.hits_cons]
    constructor
    · rintro (hlit | ⟨i, hi⟩)
      · exact ⟨_, .inl ⟨by simp, hlit⟩⟩
      · refine ⟨i, ?_⟩
        by_cases h : r.pixelIndex p.1 p.2 = i
        · right
          rw [if_pos h]
          omega
        · rw [if_neg h]
          simpa [Ne.symm h] using hi
    · rintro ⟨i, hi⟩
      by_cases h : r.pixelIndex p.1 p.2 = i
      · subst h
        by_cases hlit : f.bit (r.pixelIndex p.1 p.2) = true
        · exact .inl hlit
        · -- the pixel was not lit, so it is hit again, and the first plot has lit it
          right
          refine ⟨r.pixelIndex p.1 p.2, .inl ⟨?_, by simp [hlit]⟩⟩
          rw [if_pos rfl] at hi
          rcases hi with hi | hi
          · exact absurd hi.2 hlit
          · omega
      · right
        rw [if_neg h] at hi
        exact ⟨i, by simpa [Ne.symm h] using hi⟩

/-- The order of the plots does not matter. -/
theorem plotAll_perm (f : Framebuffer r) {ps qs : List (Nat × Nat)} (h : ps.Perm qs) :
    (Surface.plotAll f ps).2 = (Surface.plotAll f qs).2 := by
  apply ext_bit
  · intro i
    rw [bit_plotAll, bit_plotAll, Resolution.hits_perm h]
  · have hempty : ps ≠ [] ↔ qs ≠ [] := by
      rw [ne_eq, ne_eq, ← List.length_eq_zero_iff, ← List.length_eq_zero_iff, h.length_eq]
    rw [Bool.eq_iff_iff, dirty_plotAll, dirty_plotAll, hempty]

/-- A run of plots is undone by the same run. -/
theorem bytes_plotAll_twice (f : Framebuffer r) (ps : List (Nat × Nat)) :
    (Surface.plotAll f (ps ++ ps)).2.bytes = f.bytes := by
  apply bytes_ext_bit
  intro i
  have heven : ¬Odd (r.hits ps i + r.hits ps i) := by
    rw [Nat.not_odd_iff_even]
    exact ⟨_, rfl⟩
  rw [bit_plotAll, Resolution.hits_append, decide_eq_false heven, Bool.xor_false]

end Framebuffer

/-! ## The points of a sprite -/

namespace Sprite

variable {r : Resolution}

/-- The bits of a sprite that hit a pixel, as pairs of a column and a row of the sprite. The sprite lies in memory from an address
on, and its corner is at (left, top): a bit hits the pixel if it is set and lands on it, around the edges. -/
def strikes (r : Resolution) (m : Memory) (address rows left top p q : Nat) : Finset (Nat × Nat) :=
  (Finset.range 8 ×ˢ Finset.range rows).filter fun b =>
    (m.peek (address + b.2)).toNat.testBit (7 - b.1) = true ∧ (left + b.1) % r.width = p ∧ (top + b.2) % r.height = q

theorem mem_strikes {m : Memory} {address rows left top p q : Nat} {b : Nat × Nat} :
    b ∈ strikes r m address rows left top p q ↔
      (b.1 < 8 ∧ b.2 < rows) ∧ (m.peek (address + b.2)).toNat.testBit (7 - b.1) = true ∧
        (left + b.1) % r.width = p ∧ (top + b.2) % r.height = q := by
  simp [strikes]

/-- The points of a sprite whose rows are given one by one. -/
theorem points_map_range (left top : Nat) (row : Nat → UInt8) (rows : Nat) :
    points left top ((List.range rows).map row) =
      (List.range rows).flatMap fun dy =>
        ((List.range 8).filter (hasPixel (row dy))).map fun dx => (left + dx, top + dy) := by
  have hzip : ((List.range rows).map row).zipIdx = (List.range rows).map fun dy => (row dy, dy) := by
    apply List.ext_getElem
    · simp
    · intro i _ _
      simp
  rw [points, hzip, List.flatMap_map]

/-- The points of a sprite hit a pixel as often as the sprite has bits that do. -/
theorem hits_points (m : Memory) (address rows left top : Nat) {p q : Nat} (hp : p < r.width) (hq : q < r.height) :
    r.hits (points left top ((List.range rows).map fun dy => m.peek (address + dy))) (r.pixelIndex p q) =
      (strikes r m address rows left top p q).card := by
  have hlands : ∀ dx dy, r.pixelIndex (left + dx) (top + dy) = r.pixelIndex p q ↔
      (left + dx) % r.width = p ∧ (top + dy) % r.height = q := by
    intro dx dy
    rw [Resolution.pixelIndex_inj, Nat.mod_eq_of_lt hp, Nat.mod_eq_of_lt hq]
  rw [points_map_range, Resolution.hits_flatMap, strikes, Finset.card_filter, Finset.sum_product_right]
  -- both sides count row by row, one of them over the list of rows
  change ∑ dy ∈ Finset.range rows, _ = _
  apply Finset.sum_congr rfl
  intro dy _
  rw [Resolution.hits_map_filter, countP_range, Finset.card_filter]
  simp only [hasPixel, hlands, Bool.and_eq_true, decide_eq_true_iff]

end Sprite

end ChipEight
