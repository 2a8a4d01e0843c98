import ChipEight.Proofs.Lemmas.Pixels
import Mathlib.Algebra.Order.Floor.Div
import Mathlib.Data.List.Induction

/-!
# What a framebuffer shows

A framebuffer is compared with its history (`Framebuffer.Shows`): a pixel is lit when it was plotted an odd number of times since all
were last turned off, wherever around the edges the plots were, and the bits to spare are never touched. The count of lit pixels and
the list of lit points say the same of the same bytes. The mark is set by every drawing, and by the making of the framebuffer.
-/

namespace ChipEight.Framebuffer

variable {r : Resolution}

/-- One thing done to a framebuffer. -/
inductive Touch where
  | plot (x y : Nat)
  | clear
  | takeDirty
  deriving DecidableEq

/-- Does one thing to a framebuffer. -/
def touch (f : Framebuffer r) : Touch → Framebuffer r
  | .plot x y => (f.plot x y).2
  | .clear => f.clear
  | .takeDirty => f.takeDirty.2

/-- A new framebuffer after a history, oldest touch first. -/
def after (r : Resolution) (history : List Touch) : Framebuffer r := history.foldl touch (blank r)

/-- Whether a touch draws: it toggles a pixel or turns all off. -/
def Touch.draws : Touch → Bool
  | .plot _ _ | .clear => true
  | .takeDirty => false

/-- Whether a touch plots a pixel, around the edges. -/
def Touch.hits (r : Resolution) (x y : Nat) : Touch → Bool
  | .plot p q => decide (p % r.width = x % r.width ∧ q % r.height = y % r.height)
  | _ => false

/-- What was done since a touch was last made, newest first. If it never was made, that is the whole history. -/
def since (mark : Touch) (history : List Touch) : List Touch := history.reverse.takeWhile (· ≠ mark)

@[simp] theorem since_nil (mark : Touch) : since mark [] = [] := rfl

@[simp] theorem since_append_singleton (mark t : Touch) (history : List Touch) :
    since mark (history ++ [t]) = if t = mark then [] else t :: since mark history := by
  by_cases h : t = mark <;> simp [since, h]

@[simp] theorem after_nil (r : Resolution) : after r [] = blank r := rfl

@[simp] theorem after_append_singleton (r : Resolution) (history : List Touch) (t : Touch) :
    after r (history ++ [t]) = (after r history).touch t := by
  simp [after]

/-! ## One touch, and a history -/

/-- No history sets a bit to spare. -/
theorem bit_after_of_le (history : List Touch) {i : Nat} (h : r.pixelCount ≤ i) : (after r history).bit i = false := by
  induction history using List.reverseRecOn with
  | nil => simp
  | append_singleton history t ih =>
    rw [after_append_singleton]
    cases t with
    | plot x y =>
      have hne : i ≠ r.pixelIndex x y := by
        have := r.pixelIndex_lt x y
        omega
      rw [touch, bit_plot, ih, decide_eq_false hne]
      rfl
    | clear => exact bit_blank r i
    | takeDirty => exact ih

/-- A pixel is lit when the plots that hit it since the last clear are odd in number. -/
theorem isSet_after_iff (history : List Touch) (x y : Nat) :
    (after r history).isSet x y = true ↔ Odd ((since .clear history).countP (Touch.hits r x y)) := by
  induction history using List.reverseRecOn with
  | nil => simp [isSet_eq_bit]
  | append_singleton history t ih =>
    rw [after_append_singleton, since_append_singleton]
    cases t with
    | plot p q =>
      have hhits : Touch.hits r x y (.plot p q) = decide (p % r.width = x % r.width ∧ q % r.height = y % r.height) := rfl
      rw [touch, isSet_plot, if_neg (by simp), List.countP_cons, hhits]
      by_cases hit : p % r.width = x % r.width ∧ q % r.height = y % r.height
      · simp [hit, Nat.odd_add_one, ← ih]
      · simp [hit, ih]
    | clear => simp [touch, clear, isSet_eq_bit]
    | takeDirty =>
      rw [if_neg (by simp), List.countP_cons]
      exact ih

/-- The mark is set when something was drawn since it was last taken off, and as long as it never was. -/
theorem dirty_after_iff (history : List Touch) :
    (after r history).dirty = true ↔
      (∃ t ∈ since .takeDirty history, t.draws = true) ∨ Touch.takeDirty ∉ history := by
  induction history using List.reverseRecOn with
  | nil => simp [blank]
  | append_singleton history t ih =>
    rw [after_append_singleton, since_append_singleton]
    cases t with
    | plot p q => simp [touch, Touch.draws]
    | clear => simp [touch, clear, blank, Touch.draws]
    | takeDirty => simp [touch, takeDirty]

/-- What a framebuffer with a history shows. -/
structure Shows (history : List Touch) (f : Framebuffer r) : Prop where
  /-- The pixels take as many bytes as they need, rounded up. -/
  length : f.bytes.toList.length = r.width * r.height ⌈/⌉ 8
  /-- The bits behind the last pixel are never set. -/
  spare : ∀ i, r.width * r.height ≤ i → f.bit i = false
  /-- A pixel is lit when it was plotted an odd number of times since the last clear. -/
  isSet : ∀ x y, f.isSet x y = true ↔ Odd ((since .clear history).countP (Touch.hits r x y))
  /-- A plot answers whether its pixel was lit before. -/
  plot : ∀ x y, (f.plot x y).1 = f.isSet x y
  /-- A plot changes no pixel but its own. -/
  others : ∀ x y p q, ¬(p % r.width = x % r.width ∧ q % r.height = y % r.height) → (f.plot x y).2.isSet p q = f.isSet p q
  /-- The count of lit pixels counts the columns and rows at which a pixel is lit. -/
  litCount : f.litCount =
    ((Finset.range r.width ×ˢ Finset.range r.height).filter fun p => f.isSet p.1 p.2 = true).card
  /-- To take the mark off answers whether something was drawn since the last time, and the first time it always does. -/
  takeDirty : f.takeDirty.1 = true ↔
    (∃ t ∈ since .takeDirty history, t.draws = true) ∨ Touch.takeDirty ∉ history
  /-- The lit points of the packed bytes are the lit pixels, row by row and from left to right, each once. -/
  litPoints : r.litPoints f.bytes =
    (List.range r.height).flatMap fun y =>
      ((List.range r.width).filter fun x => f.isSet x y).map fun x : Nat => ((x : Int), -(y : Int))

/-- A new framebuffer of any size shows its history, whatever was done to it and in whatever order. -/
theorem shows_after (r : Resolution) (history : List Touch) : Shows history (after r history) where
  length := by
    rw [Vector.length_toList, Nat.ceilDiv_eq_add_pred_div]
    rfl
  spare := by
    intro i hi
    exact bit_after_of_le history hi
  isSet := isSet_after_iff history
  plot := by
    intro x y
    rfl
  others := by
    intro x y p q h
    have hother : ¬(x % r.width = p % r.width ∧ y % r.height = q % r.height) := by
      rintro ⟨hx, hy⟩
      exact h ⟨hx.symm, hy.symm⟩
    rw [isSet_plot, decide_eq_false hother, Bool.xor_false]
  litCount := by
    apply litCount_eq_card
    intro i hi
    exact bit_after_of_le history hi
  takeDirty := dirty_after_iff history
  litPoints := litPoints_eq _

/-- The mark of a new framebuffer is set although nothing was drawn on it. -/
theorem not_forall_dirty_iff_drawn :
    ¬∀ history : List Touch,
      (after .standard history).takeDirty.1 = true ↔ ∃ t ∈ since .takeDirty history, t.draws = true := by
  intro h
  obtain ⟨t, hm, -⟩ := (h []).mp rfl
  cases hm

end ChipEight.Framebuffer
