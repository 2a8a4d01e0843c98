import ChipEight.Proofs.Lemmas.Pixels
import ChipEight.Screen.Terminal
import Mathlib.Data.List.Induction
import Mathlib.Logic.Function.Iterate

/-!
# What a terminal shows

A present that finds the mark of the framebuffer draws the picture, and one that does not find it does nothing. So the terminal shows the
framebuffer behind every present that succeeds, unless the last attempt to draw failed (`TerminalDisplay.shows_unless_failed`). The mark
is taken off before the terminal is asked, and it stays off when the terminal fails: the frame is lost then, and no present tries again
until something else is drawn (`TerminalDisplay.not_forall_present_shows`).
-/

namespace ChipEight.TerminalDisplay

variable {r : Resolution}

/-! ## Histories -/

/-- One thing done to a display. -/
inductive Touch where
  | plot (x y : Nat)
  | clear
  | present
  deriving DecidableEq

/-- Does one thing to a display. -/
def touch (t : TerminalDisplay r) : Touch → TerminalDisplay r
  | .plot x y => (Surface.plot t x y).2
  | .clear => Surface.clear t
  | .present => (Surface.present t).2

/-- A new display after a history, oldest touch first. The terminal answers as it likes. -/
def after (r : Resolution) (answers : Nat → Option DeviceError) (history : List Touch) : TerminalDisplay r :=
  history.foldl touch (blank r answers)

theorem after_append_singleton (answers : Nat → Option DeviceError) (history : List Touch) (x : Touch) :
    after r answers (history ++ [x]) = (after r answers history).touch x := by
  rw [after, List.foldl_append]
  rfl

/-- That the terminal shows the lit points of the framebuffer. -/
def UpToDate (t : TerminalDisplay r) : Prop := t.shown = some (r.litPoints t.framebuffer.bytes)

instance (t : TerminalDisplay r) : Decidable t.UpToDate := inferInstanceAs (Decidable (_ = _))

/-- That the terminal failed when drawing was last tried. -/
def LastFailed (t : TerminalDisplay r) : Prop := ∃ n error, t.attempts = n + 1 ∧ t.answers n = some error

/-! ## One present -/

/-- Without the mark a present does nothing. -/
theorem present_of_clean {t : TerminalDisplay r} (h : t.framebuffer.dirty = false) : t.present = (none, t) := by
  have hsame : { t with framebuffer := t.framebuffer.takeDirty.2 } = t := by
    rw [Framebuffer.takeDirty, ← h]
  unfold present
  dsimp only
  rw [hsame, Framebuffer.takeDirty, h]
  rfl

/-- With the mark a present takes it off and draws. -/
theorem present_of_dirty {t : TerminalDisplay r} (h : t.framebuffer.dirty = true) :
    t.present = render { t with framebuffer := { t.framebuffer with dirty := false } } := by
  unfold present
  dsimp only
  rw [Framebuffer.takeDirty, h]
  rfl

/-- A present succeeds in one of two ways: there was no mark and nothing has happened, or the picture was drawn. -/
theorem present_eq_none {t : TerminalDisplay r} (h : t.present.1 = none) :
    t.framebuffer.dirty = false ∧ t.present.2 = t ∨ t.framebuffer.dirty = true ∧ t.present.2.UpToDate := by
  cases hdirty : t.framebuffer.dirty with
  | false =>
    rw [present_of_clean hdirty]
    exact Or.inl ⟨rfl, rfl⟩
  | true =>
    rw [present_of_dirty hdirty] at h ⊢
    unfold render at h ⊢
    split at h
    · cases h
    · exact Or.inr ⟨rfl, rfl⟩

/-- A present fails when drawing fails, and then the terminal goes on showing what it showed, but the mark is off. -/
theorem present_eq_some {t : TerminalDisplay r} {error : DeviceError} (h : t.present.1 = some error) :
    t.present.2.LastFailed ∧ t.present.2.shown = t.shown ∧
      t.present.2.framebuffer = { t.framebuffer with dirty := false } := by
  cases hdirty : t.framebuffer.dirty with
  | false =>
    rw [present_of_clean hdirty] at h
    cases h
  | true =>
    rw [present_of_dirty hdirty] at h ⊢
    unfold render at h ⊢
    split at h
    · rename_i failure hfailure
      exact ⟨⟨t.attempts, failure, rfl, hfailure⟩, rfl, rfl⟩
    · cases h

/-! ## A history -/

/-- Without the mark the terminal shows the framebuffer, unless it failed when drawing was last tried. -/
theorem upToDate_of_clean (answers : Nat → Option DeviceError) (history : List Touch)
    (h : (after r answers history).framebuffer.dirty = false) :
    (after r answers history).UpToDate ∨ (after r answers history).LastFailed := by
  induction history using List.reverseRecOn with
  | nil => cases h
  | append_singleton history x ih =>
    rw [after_append_singleton] at h ⊢
    cases x with
    | plot | clear => cases h
    | present =>
      show (after r answers history).present.2.UpToDate ∨ (after r answers history).present.2.LastFailed
      cases hanswer : (after r answers history).present.1 with
      | none =>
        rcases present_eq_none hanswer with ⟨hclean, hsame⟩ | ⟨-, hshown⟩
        · rw [hsame]
          exact ih hclean
        · exact Or.inl hshown
      | some error => exact Or.inr (present_eq_some hanswer).1

/-- A present that succeeds leaves the terminal showing exactly the framebuffer, after every history of plots, clears and presents on a
new display and whenever the terminal fails, if something was drawn since the last present, and otherwise if the terminal did not fail
when drawing was last tried. A present that fails leaves the screen and the pixels as they are, and loses the frame: however many
presents follow it before something is drawn, all of them succeed and none of them changes anything. -/
theorem shows_unless_failed (r : Resolution) (answers : Nat → Option DeviceError) (history : List Touch) :
    let t := after r answers history
    (t.present.1 = none → t.framebuffer.dirty = true ∨ ¬t.present.2.LastFailed → t.present.2.UpToDate) ∧
    ∀ error, t.present.1 = some error →
      t.present.2.LastFailed ∧ t.present.2.shown = t.shown ∧ t.present.2.framebuffer.bytes = t.framebuffer.bytes ∧
      t.present.2.present.1 = none ∧
      ∀ presents : Nat, (fun u : TerminalDisplay r => u.present.2)^[presents] t.present.2 = t.present.2 := by
  intro t
  constructor
  · intro hanswer hcause
    rcases present_eq_none hanswer with ⟨hclean, hsame⟩ | ⟨-, hshown⟩
    · rw [hsame] at hcause ⊢
      rcases hcause with hdirty | hnot
      · rw [hclean] at hdirty
        cases hdirty
      · exact (upToDate_of_clean answers history hclean).resolve_right hnot
    · exact hshown
  · intro error herror
    obtain ⟨hfailed, hshown, hframebuffer⟩ := present_eq_some herror
    have hidle := present_of_clean (t := t.present.2) (by rw [hframebuffer])
    refine ⟨hfailed, hshown, by rw [hframebuffer], by rw [hidle], fun presents => ?_⟩
    exact Function.iterate_fixed (by rw [hidle]) presents

/-- A terminal that fails the second time it is to draw. -/
def faltering : Nat → Option DeviceError := fun n => if n = 1 then some ⟨"BrokenPipe", "screen gone"⟩ else none

/-- The pixel that was plotted before the failure is not shown by three more presents. Another one that is plotted then is shown, and the
first with it. -/
theorem shows_unless_failed_faltering :
    let t := after .standard faltering [.present, .plot 0 0]
    t.present.1 = some ⟨"BrokenPipe", "screen gone"⟩ ∧ t.present.2.shown = t.shown ∧
      (fun u : TerminalDisplay .standard => u.present.2)^[3] t.present.2 = t.present.2 ∧
      (after .standard faltering [.present, .plot 0 0, .present, .plot 1 0]).present.1 = none ∧
      (after .standard faltering [.present, .plot 0 0, .present, .plot 1 0]).present.2.UpToDate := by
  intro t
  have hfailed : t.present.1 = some ⟨"BrokenPipe", "screen gone"⟩ := by decide +kernel
  have hanswer : (after .standard faltering [.present, .plot 0 0, .present, .plot 1 0]).present.1 = none := by decide +kernel
  obtain ⟨-, hshown, -, -, hlost⟩ := (shows_unless_failed .standard faltering [.present, .plot 0 0]).2 _ hfailed
  have hagain := (shows_unless_failed .standard faltering [.present, .plot 0 0, .present, .plot 1 0]).1 hanswer (Or.inl rfl)
  exact ⟨hfailed, hshown, hlost 3, hanswer, hagain⟩

/-- It is not so that behind every present that succeeds the terminal shows the framebuffer: one pixel is plotted, the present that is to
show it fails, and the next one succeeds without drawing it. -/
theorem not_forall_present_shows :
    ¬∀ (answers : Nat → Option DeviceError) (history : List Touch),
      (after .standard answers history).present.1 = none → (after .standard answers history).present.2.UpToDate := by
  intro hall
  have hshown := hall faltering [.present, .plot 0 0, .present] (by decide +kernel)
  generalize hlast : (after .standard faltering [.present, .plot 0 0, .present]).present.2 = last at hshown
  -- what is shown is still the blank picture of the first present
  have hblank : last.shown = some (Resolution.standard.litPoints (Framebuffer.blank .standard).bytes) := hlast ▸ rfl
  have hsame := Option.some.inj (hblank.symm.trans hshown)
  have hlit : last.framebuffer.isSet 0 0 = true := by
    rw [← hlast]
    decide +kernel
  have hpoint := (last.framebuffer.mem_litPoints_iff (by decide) (by decide)).mpr hlit
  rw [← hsame, Framebuffer.mem_litPoints_iff _ (by decide) (by decide)] at hpoint
  revert hpoint
  decide +kernel

end ChipEight.TerminalDisplay
