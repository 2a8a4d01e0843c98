import ChipEight.Proofs.Lemmas.Halts
import ChipEight.Screen.Framebuffer

/-!
# Exactly when a step halts

`Session.Halts` lists the reasons for which a step halts. Here: the list is complete and every reason on it is given, for every
reachable running session, and a program that is too large is never a reason.
-/

namespace ChipEight.Session

variable {σ : Type} [Surface σ]

/-! ## A program that is too large -/

omit [Surface σ] in
/-- No step halts because a program is too large. -/
theorem Halts.ne_programTooLarge {s : Session σ} {latched : Option Keypress} {reason : HaltReason}
    (h : s.Halts latched reason) (size max : Nat) : reason ≠ .fault (.programTooLarge size max) := by
  cases h <;> nofun

omit [Surface σ] in
/-- The status after a poll is the one before, or a cancel. -/
theorem status_poll (s : Session σ) (latched : Option Keypress) :
    (s.poll latched).1.status = s.status ∨ (s.poll latched).1.status = .halted .cancelled := by
  unfold poll
  split
  · exact Or.inl rfl
  · dsimp only
    split
    · exact Or.inr rfl
    · exact Or.inl rfl

omit [Surface σ] in
/-- The status after a load is the one before, or running. -/
theorem status_load (s : Session σ) (program : List UInt8) (address : UInt16) :
    (s.load program address).2.status = s.status ∨ (s.load program address).2.status = .running := by
  unfold load
  split
  · exact Or.inl rfl
  · exact Or.inr rfl

/-- No reachable session has halted because a program is too large. -/
theorem Reachable.status_ne_programTooLarge {s : Session σ} (h : s.Reachable) (size max : Nat) :
    s.status ≠ .halted (.fault (.programTooLarge size max)) := by
  induction h with
  | start settings entropy surface => nofun
  | @act s a h ih =>
    cases a with
    | load program address =>
      rcases s.status_load program address with e | e
      · exact fun hc => ih (e.symm.trans hc)
      · exact fun hc => nomatch e.symm.trans hc
    | step latched =>
      rcases h.inRange.status_step latched with e | ⟨reason, e, hh⟩
      · exact fun hc => ih (e.symm.trans hc)
      · exact fun hc => hh.ne_programTooLarge size max (Status.halted.inj (e.symm.trans hc))
    | tick => exact ih
    | poll latched =>
      rcases s.status_poll latched with e | e
      · exact fun hc => ih (e.symm.trans hc)
      · exact fun hc => nomatch e.symm.trans hc
    | present => exact ih

/-! ## The conditions -/

/-- A step of a reachable running session halts for exactly the listed reasons and goes on in all other cases. At the end of the
program, found before anything is fetched, nothing but the status changes. No reachable session has halted because a program is
too large. -/
theorem halting_conditions {s : Session σ} (h : s.Reachable) :
    (∀ size max, s.status ≠ .halted (.fault (.programTooLarge size max))) ∧
    (s.status = .running → ∀ latched,
      (∀ reason, (s.step latched).1.status = .halted reason ↔ s.Halts latched reason) ∧
      ((s.step latched).1.status = .running ↔ ∀ reason, ¬s.Halts latched reason) ∧
      (s.memory.programEnd ≤ s.registers.pc.toNat → s.step latched = (s.halt .endOfProgram, []))) := by
  refine ⟨h.status_ne_programTooLarge, fun hr latched => ?_⟩
  have key := h.inRange.step_eq_halted_iff hr latched
  refine ⟨key, ?_, fun hend => step_of_fetch_error hr (h.inRange.fetch_eq_error_iff.mpr ⟨hend, rfl⟩) latched⟩
  constructor
  · intro hs reason hh
    cases hs.symm.trans ((key reason).mpr hh)
  · intro hn
    cases hs : (s.step latched).1.status with
    | running => rfl
    | halted reason => exact absurd ((key reason).mp hs) (hn reason)

/-- A program that calls below the executable region halts on the call, with the target as the address. -/
theorem halting_conditions_call_below :
    (loaded (Framebuffer.blank .standard) [0x21, 0x00] 0x200).Reachable ∧
      (loaded (Framebuffer.blank .standard) [0x21, 0x00] 0x200).status = .running ∧
      (loaded (Framebuffer.blank .standard) [0x21, 0x00] 0x200).Halts none (.fault (.outOfRange 0x100)) := by
  have hr := reachable_loaded (Framebuffer.blank .standard) [0x21, 0x00] 0x200
  have hrun : (loaded (Framebuffer.blank .standard) [0x21, 0x00] 0x200).status = .running := rfl
  have hstep : ((loaded (Framebuffer.blank .standard) [0x21, 0x00] 0x200).step none).1.status =
      .halted (.fault (.outOfRange 0x100)) := by decide +kernel
  exact ⟨hr, hrun, (((halting_conditions hr).2 hrun none).1 _).mp hstep⟩

end ChipEight.Session
