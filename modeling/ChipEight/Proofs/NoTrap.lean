import ChipEight.Proofs.Guarded.Session
import ChipEight.Proofs.Lemmas.Halts

/-!
# No program traps the machine

Whatever a program is, whatever it makes of its memory, and whatever is done to the session that runs it, no index, no slice, no
sum and no shift of the machine fails its test. What is wrong with a program is always a reason to halt, in the program's own
terms.
-/

namespace ChipEight.Session

/-- A framebuffer whose pixels can be counted in whole bytes can be made. No history of a session on it traps, whatever pixels it
shows at the start: the tested machine does what the machine does. A step after a history keeps the status, or halts the session
for a listed reason. -/
theorem no_trap {r : Resolution} (h : r.pixelCount + 7 < Guarded.addressLimit) (settings : Settings) (entropy : ByteStream)
    (surface : Framebuffer r) (actions : List (Action (Option Keypress))) :
    Guarded.byteCount r = .ok r.byteCount ∧
    Guarded.actAll (Session.start settings entropy surface).1 actions =
      .ok ((Session.start settings entropy surface).1.actAll actions) ∧
    ∀ s latched, s = ((Session.start settings entropy surface).1.actAll actions).1 →
      (s.step latched).1.status = s.status ∨
        ∃ reason, (s.step latched).1.status = .halted reason ∧ s.Halts latched reason := by
  have hstart := Reachable.start settings entropy surface
  refine ⟨Guarded.byteCount_eq h, Guarded.actAll_eq h hstart.inRange actions, ?_⟩
  rintro s latched rfl
  exact (hstart.actAll actions).inRange.status_step latched

/-- On the standard picture the machine takes a program that returns with no open call without a trap. -/
theorem no_trap_ret :
    Resolution.standard.pixelCount + 7 < Guarded.addressLimit ∧
      Guarded.actAll (Session.start .standard (.ofSeed 0) (Framebuffer.blank .standard)).1
          [.load [0x00, 0xee] 0x200, .step none, .tick] =
        .ok ((Session.start .standard (.ofSeed 0) (Framebuffer.blank .standard)).1.actAll
          [.load [0x00, 0xee] 0x200, .step none, .tick]) := by
  have h : Resolution.standard.pixelCount + 7 < Guarded.addressLimit := by decide
  exact ⟨h, (no_trap h .standard (.ofSeed 0) (Framebuffer.blank .standard) _).2.1⟩

end ChipEight.Session
