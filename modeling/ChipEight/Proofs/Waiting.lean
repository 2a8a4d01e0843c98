import ChipEight.Proofs.Lemmas.Halts
import ChipEight.Proofs.Tone

/-!
# Waiting for a key

The instruction that waits for a key goes back to itself as long as no key is latched. So a session that waits is the same after any
number of steps, ticks and polls, except that the timers run, and the first step that finds a key goes on as if there had been no wait
(`Session.waits_for_key`).
-/

namespace ChipEight

/-- Whether an action is a step, a tick or a poll that finds no key latched. -/
def Action.isQuiet : Action (Option Keypress) → Bool
  | .step none | .tick | .poll none => true
  | _ => false

namespace Session

variable {σ : Type} [Surface σ]

/-! ## One step of the wait -/

section

variable {s : Session σ} {x : Register}

/-- A step that waits looks at the keypad behind the fetch. -/
theorem InRange.step_waitKey (h : s.InRange) (hr : s.status = .running) (hn : s.Next (.waitKey x)) (look : Option Keypress) :
    (s.step look).1 = (Execution.ofGate s.advance (.ok (Gate.wait s.advance.registers look x))).closed := by
  obtain ⟨op, hw, hd⟩ := hn
  rw [step_of_decode hr (h.nextWord_iff.mpr hw) hd, Session.execute]

/-- With no key latched the step undoes the fetch, and nothing has changed. -/
theorem InRange.step_waitKey_none (h : s.InRange) (hr : s.status = .running) (hn : s.Next (.waitKey x)) :
    (s.step none).1 = s := by
  have hback := pc_advance_sub s
  rw [h.step_waitKey hr hn]
  show s.advance.withRegisters (s.advance.registers.setPc (s.advance.registers.pc - Flow.instructionBytes)) = s
  rw [hback]
  rfl

/-- A key ends the wait. -/
theorem InRange.step_waitKey_key (h : s.InRange) (hr : s.status = .running) (hn : s.Next (.waitKey x)) (k : UInt8) :
    (s.step (some (.key k))).1 = { s with registers := (s.registers.set x k).setPc (s.registers.pc + 2) } := by
  rw [h.step_waitKey hr hn]
  rfl

/-- A cancel ends the session. -/
theorem InRange.step_waitKey_cancel (h : s.InRange) (hr : s.status = .running) (hn : s.Next (.waitKey x)) :
    (s.step (some .cancel)).1 =
      { s with registers := s.registers.setPc (s.registers.pc + 2), status := .halted .cancelled } := by
  rw [h.step_waitKey hr hn]
  rfl

/-- A quiet action on a session that waits changes the timers only, and only if it is a tick. -/
theorem InRange.act_of_waiting (h : s.InRange) (hr : s.status = .running) (hn : s.Next (.waitKey x))
    {a : Action (Option Keypress)} (ha : a.isQuiet = true) :
    (s.act a).1 = s.withTimers (if a = .tick then s.timers.tick.1 else s.timers) := by
  cases a with
  | load | present => cases ha
  | step look =>
    cases look with
    | none => exact h.step_waitKey_none hr hn
    | some k => cases ha
  | tick => rfl
  | poll look =>
    cases look with
    | none =>
      simp only [Session.act, poll, hr]
      rfl
    | some k => cases ha

end

/-! ## The wait as a whole -/

/-- A session that waits is the same after any quiet actions, but for the timers, which count the ticks. -/
theorem InRange.actAll_of_waiting {s : Session σ} (h : s.InRange) (hr : s.status = .running) {x : Register}
    (hn : s.Next (.waitKey x)) {waits : List (Action (Option Keypress))} (hq : ∀ a ∈ waits, a.isQuiet = true) :
    (s.actAll waits).1 = s.withTimers (s.actAll waits).1.timers ∧
      ∀ timer, ((s.actAll waits).1.timers.left timer).toNat = (s.timers.left timer).toNat - waits.count .tick := by
  induction waits generalizing s with
  | nil => exact ⟨rfl, fun _ => rfl⟩
  | cons a rest ih =>
    have hfirst := h.act_of_waiting hr hn (hq a List.mem_cons_self)
    have hrun : (s.act a).1.status = .running := by
      rw [hfirst]
      exact hr
    have hnext : (s.act a).1.Next (.waitKey x) := by
      rw [hfirst]
      exact hn
    obtain ⟨hsession, hleft⟩ := ih (h.act a) hrun hnext fun b hb => hq b (List.mem_cons_of_mem a hb)
    constructor
    · rw [actAll]
      rw [hsession, hfirst]
      rfl
    · intro timer
      have htick : ((s.act a).1.timers.left timer).toNat = (s.timers.left timer).toNat - if a = .tick then 1 else 0 := by
        rw [hfirst]
        by_cases ha : a = .tick
        · rw [if_pos ha, if_pos ha]
          exact s.timers.left_tick timer
        · rw [if_neg ha, if_neg ha]
          rfl
      rw [actAll, hleft, htick, count_tick_cons, Nat.sub_sub, Nat.add_comm]

/-- A reachable session that is about to wait for a key still is after any steps, ticks and polls that find no key. Nothing in it has
changed but the timers, which count the ticks. The step that finds a key then stores it and goes on behind the instruction, and the
step that finds a cancel ends the session there; neither changes anything else. -/
theorem waits_for_key {s : Session σ} (h : s.Reachable) (hr : s.status = .running) {x : Register} (hn : s.Next (.waitKey x))
    {waits : List (Action (Option Keypress))} (hq : ∀ a ∈ waits, a.isQuiet = true) :
    let w := (s.actAll waits).1
    w = { s with timers := w.timers } ∧
    (∀ timer, (w.timers.left timer).toNat = (s.timers.left timer).toNat - waits.count .tick) ∧
    w.status = .running ∧ w.Next (.waitKey x) ∧
    (∀ k, (w.step (some (.key k))).1 = { w with registers := (s.registers.set x k).setPc (s.registers.pc + 2) }) ∧
    (w.step (some .cancel)).1 =
      { w with registers := s.registers.setPc (s.registers.pc + 2), status := .halted .cancelled } ∧
    (s.registers.pc + 2).toNat = s.registers.pc.toNat + 2 := by
  intro w
  have hs := h.inRange
  have hw : w.InRange := (h.actAll waits).inRange
  obtain ⟨hsame, hleft⟩ := hs.actAll_of_waiting hr hn hq
  have hregisters : w.registers = (s.withTimers w.timers).registers := congrArg Session.registers hsame
  have hrun : w.status = .running := (congrArg Session.status hsame).trans hr
  have hnext : w.Next (.waitKey x) := by
    have hagain : (s.withTimers w.timers).Next (.waitKey x) := hn
    rwa [← hsame] at hagain
  refine ⟨hsame, hleft, hrun, hnext, ?_, ?_, hs.toNat_pc_advance⟩
  · intro k
    rw [hw.step_waitKey_key hrun hnext, hregisters]
    rfl
  · rw [hw.step_waitKey_cancel hrun hnext, hregisters]
    rfl

/-- A session that has set the delay timer to 5 and is about to wait for a key for V1. -/
def delayed : Session (Framebuffer .standard) :=
  ((loaded (.blank .standard) [0x60, 0x05, 0xf0, 0x15, 0xf1, 0x0a] 0x200).actAll [.step none, .step none]).1

/-- Two of five ticks pass while the session waits, and then a 7 comes to V1, or a cancel leaves V1 as it is. -/
theorem waits_for_key_two_ticks :
    let waits : List (Action (Option Keypress)) := [.step none, .tick, .poll none, .tick, .step none]
    delayed.Reachable ∧ delayed.status = .running ∧ delayed.Next (.waitKey 1) ∧ (∀ a ∈ waits, a.isQuiet = true) ∧
      ((delayed.actAll waits).1.timers.left .delay).toNat = 3 ∧
      (delayed.actAll waits).1.registers = delayed.registers ∧
      (((delayed.actAll waits).1.step (some (.key 7))).1.registers.get 1 = 7 ∧
        ((delayed.actAll waits).1.step (some (.key 7))).1.registers.pc = 0x206) ∧
      (((delayed.actAll waits).1.step (some .cancel)).1.status = .halted .cancelled ∧
        ((delayed.actAll waits).1.step (some .cancel)).1.registers.get 1 = delayed.registers.get 1) := by
  intro waits
  have hreach : delayed.Reachable := (reachable_loaded _ _ _).actAll _
  have hrun : delayed.status = .running := by decide +kernel
  have hnext : delayed.Next (.waitKey 1) := ⟨_, ⟨by decide +kernel, rfl⟩, by decide +kernel⟩
  have hquiet : ∀ a ∈ waits, a.isQuiet = true := by decide
  obtain ⟨hsame, hleft, -, -, hkey, hcancel, -⟩ := waits_for_key hreach hrun hnext hquiet
  have hpc : delayed.registers.pc + 2 = 0x206 := by decide +kernel
  have hcount : (delayed.timers.left .delay).toNat - waits.count .tick = 3 := by decide +kernel
  generalize (delayed.actAll waits).1 = w at hsame hleft hkey hcancel ⊢
  refine ⟨hreach, hrun, hnext, hquiet, (hleft .delay).trans hcount, ?_, ⟨?_, ?_⟩, ?_, ?_⟩
  · rw [hsame]
  · rw [hkey]
    show ((delayed.registers.set 1 7).setPc _).get 1 = 7
    rw [Registers.get_setPc, Registers.get_set_self]
  · rw [hkey]
    exact hpc
  · rw [hcancel]
  · rw [hcancel]
    exact Registers.get_setPc _ _ _

end Session

end ChipEight
