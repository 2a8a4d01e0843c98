import ChipEight.Proofs.Lemmas.Drive
import ChipEight.Screen.Framebuffer

/-!
# A run replays its schedule

What a run with a limit of steps does to a console, whatever the clock, the keypad, the speaker and the surface do: the actions of
the first events of the cadence, in their order, and one present at the end. `Console.Concluded` says behind which events a run
that does not fail can end, and with which status. A present that fails is the last thing that happens.
-/

namespace ChipEight.Console

open Schedule

variable {σ κ : Type} [Surface σ] [Keypad κ]

/-- That a drive with a limit of `m` steps is over after some events without a failure, with the status the session has then. -/
inductive Concluded (clock : Nat → Nat → Nat) (cad : Cadence) (m : Nat) (c : Console σ κ) (events : List TimedEvent) :
    Status → Prop where
  /-- All steps are made, and all ticks that come before one step more, and the session is running. -/
  | usedUp (hsteps : stepCount events = m) (hticks : tickCount events = m * cad.tickRate / cad.stepRate)
      (h : (c.actAll (script clock events)).session.status = .running) : Concluded clock cad m c events .running
  /-- The session was running until the last action, which is a step or the poll of a tick, halted it. -/
  | halted {front : List (Action Nat)} {last : Action Nat} {reason : HaltReason} (hlast : script clock events = front ++ [last])
      (hbefore : (c.actAll front).session.status = .running)
      (h : (c.actAll (script clock events)).session.status = .halted reason) : Concluded clock cad m c events (.halted reason)
  /-- The session had halted before the drive. The first event, a step, finds that out, if a step may be made at all. -/
  | already {reason : HaltReason} (hlength : events.length = min m 1) (hsteps : stepCount events = min m 1)
      (h : c.session.status = .halted reason) : Concluded clock cad m c events (.halted reason)

variable {clock : Nat → Nat → Nat} {m : Nat} {cad : Cadence} {c₀ c : Console σ κ} {events : List TimedEvent}
  {s : Schedule}

/-- A drive handles no more events than come before the first step beyond the limit. -/
theorem Driven.length_le (h : Driven clock (some m) cad c₀ events s c) : events.length ≤ cad.stepPlace m := by
  have hsteps := h.stepCount_le
  have hticks : tickCount events ≤ m * cad.tickRate / cad.stepRate :=
    (Nat.le_div_iff_mul_le cad.stepRate_pos).mpr (h.merged.tick_le.trans (Nat.mul_le_mul_right _ hsteps))
  rw [← stepCount_add_tickCount, Cadence.stepPlace]
  omega

/-- A drive that has used up its steps is over. -/
theorem Driven.concluded_of_usedUp {due : Nat} {later : Schedule} (h : Driven clock (some m) cad c₀ events s c)
    (hgo : events = [] ∨ c.session.status = .running) (hnext : s.next? = some (⟨due, .step⟩, later))
    (hm : m ≤ stepCount events) : c₀.Concluded clock cad m events c.session.status := by
  have hsteps : stepCount events = m := Nat.le_antisymm h.stepCount_le hm
  cases hs : c.session.status with
  | running =>
    have hticks : tickCount events = m * cad.tickRate / cad.stepRate := by
      rw [h.schedule_eq] at hnext
      rcases of_next?_after hnext with ⟨-, he, -⟩ | ⟨hlt, -, -⟩
      · cases he
      · rw [← hsteps]
        exact h.merged.ticks_eq_div hlt
    exact .usedUp hsteps hticks (h.eq_actAll ▸ hs)
  | halted reason =>
    rcases hgo with rfl | hrun
    · cases hsteps
      rw [h.eq_actAll] at hs
      exact .already rfl rfl hs
    · rw [hrun] at hs
      cases hs

/-- A step of a session that has halted tells why again. -/
theorem status_step_of_halted {c : Console σ κ} {reason : HaltReason} (h : c.session.status = .halted reason) (now : Nat) :
    (c.step now).session.status = .halted reason := by
  rw [step, session_settle, Session.step, h]
  exact h

/-- A drive whose last event left the session halted is over. -/
theorem Driven.concluded_of_halted {reason : HaltReason} (h : Driven clock (some m) cad c₀ events s c) (hne : events ≠ [])
    (hs : c.session.status = .halted reason) : c₀.Concluded clock cad m events (.halted reason) := by
  have hscript := h.eq_actAll
  have hsteps := h.stepCount_le
  cases h with
  | start => exact absurd rfl hne
  | @event before e _ _ c h hgo hnext hhandles =>
    obtain ⟨front, last, hactions, hfront⟩ := actions_eq_append (σ := σ) (κ := κ) (clock before.length e.due) e.event
    have hlast : script clock (before ++ [e]) = script clock before ++ front ++ [last] := by
      rw [script_append_singleton, hactions, List.append_assoc]
    have hbefore : (c₀.actAll (script clock before ++ front)).session.status = c.session.status := by
      rw [actAll_append, ← h.eq_actAll, hfront]
    cases hc : c.session.status with
    | running => exact .halted hlast (hbefore.trans hc) (hscript ▸ hs)
    | halted found =>
      rcases hgo with rfl | hrun
      · -- the first event is a step, which tells why the session had halted
        obtain ⟨due, event⟩ := e
        cases h.event_of_nil hnext
        cases (status_step_of_halted hc _).symm.trans hs
        have hm : 1 ≤ m := hsteps
        rw [h.eq_actAll] at hc
        exact .already (Nat.min_eq_right hm).symm (Nat.min_eq_right hm).symm hc
      · rw [hrun] at hc
        cases hc

/-- How a drive with a limit ends: it is over, which the last present may still make a failure, or the surface has failed in a tick,
or the schedule has ended. -/
theorem Driven.end_cases {result : Console σ κ × Verdict} (h : Driven clock (some m) cad c₀ events s c)
    (hends : c.Ends (some m) events s result) :
    (c₀.Concluded clock cad m events c.session.status ∧ result = c.conclude) ∨
      (∃ due error, cad.events (events.length + 1) = events ++ [⟨due, .tick⟩] ∧ c.tick.present.1 = some error ∧
        result = (c.tick.present.2, .failed error)) ∨
      (¬ cad.Fits (cad.stepPlace m + 1) ∧ result = (c, .outOfTime)) := by
  cases hends with
  | usedUp hgo hnext hlimit =>
    exact Or.inl ⟨h.concluded_of_usedUp hgo hnext (of_decide_eq_true hlimit), rfl⟩
  | halted hne hs => exact Or.inl ⟨hs ▸ h.concluded_of_halted hne hs, rfl⟩
  | failed _ hnext herror =>
    exact Or.inr (Or.inl ⟨_, _, congrArg Prod.fst (take_succ_of_next? h.take_eq rfl hnext), herror, rfl⟩)
  | outOfTime _ hnext => exact Or.inr (Or.inr ⟨fun hfit => h.not_fits hnext (hfit.mono (Nat.succ_le_succ h.length_le)), rfl⟩)

/-- A present at the end changes nothing but the surface. -/
theorem session_actAll_append_present (c : Console σ κ) (actions : List (Action Nat)) :
    (c.actAll (actions ++ [.present])).session =
      { (c.actAll actions).session with surface := (c.actAll (actions ++ [.present])).session.surface } := by
  rw [actAll_append_present]
  rfl

/-- What a run with a limit of `m` steps does: the actions of the first events of the cadence, and a present at the end. It makes
no more than `m` steps. If it finishes, every present has succeeded, and there was one for each tick and one at the end; it finishes
when the steps are used up or when the session halts. If it fails, a present has failed that is the last thing that was done: the
one of a tick, or the one at the end; all others have succeeded. It does not run out of time as long as the times up to the step
after the last fit. -/
theorem run_replays (clock : Nat → Nat → Nat) (cad : Cadence) (m : Nat) (c : Console σ κ) :
    ∃ (events : List TimedEvent) (actions : List (Action Nat)),
      events = cad.events events.length ∧ events.length ≤ cad.stepPlace m ∧
      (c.run clock cad (some m)).1 = c.actAll actions ∧
      actions.countP Action.isStep = stepCount events ∧ stepCount events ≤ m ∧
      match (c.run clock cad (some m)).2 with
      | .finished status =>
        actions = script clock events ++ [.present] ∧ c.PresentsSucceed actions ∧
          actions.count .present = tickCount events + 1 ∧ c.Concluded clock cad m events status
      | .failed error =>
        ∃ before, actions = before ++ [.present] ∧ c.PresentsSucceed before ∧ (c.actAll before).present.1 = some error ∧
          (c.actAll actions).session =
            { (c.actAll before).session with surface := (c.actAll actions).session.surface } ∧
          ((before = script clock events ++ [.tick] ∧ ∃ due, cad.events (events.length + 1) = events ++ [⟨due, .tick⟩]) ∨
            (before = script clock events ∧ ∃ status, c.Concluded clock cad m events status))
      | .outOfTime =>
        actions = script clock events ∧ c.PresentsSucceed actions ∧ ¬ cad.Fits (cad.stepPlace m + 1) := by
  have hstart : Driven clock (some m) cad c [] (.start cad) c := .start
  obtain ⟨events, s, last, hd, hends⟩ := hstart.ends (Or.inl rfl)
  have hevents := hd.events_eq.symm
  have hscript := hd.eq_actAll
  have hsteps := countP_isStep_script clock events
  have hpresents := hd.presentsSucceed
  rcases hd.end_cases hends with ⟨hover, hrun⟩ | ⟨due, error, htick, herror, hrun⟩ | ⟨hfit, hrun⟩
  · have hdone : last.present.2 = c.actAll (script clock events ++ [.present]) := by
      rw [actAll_append_present, ← hscript]
    have hcount : (script clock events ++ [Action.present]).countP Action.isStep = stepCount events := by
      rw [countP_isStep_append_present, hsteps]
    rcases last.conclude_cases with ⟨hnone, hconclude⟩ | ⟨error, herror, hconclude⟩
    · rw [show c.run clock cad (some m) = _ from hrun.trans hconclude]
      refine ⟨events, _, hevents, hd.length_le, hdone, hcount, hd.stepCount_le, rfl, ?_, ?_, hover⟩
      · rw [presentsSucceed_append, ← hscript]
        exact ⟨hpresents, fun _ => hnone, trivial⟩
      · rw [List.count_append, count_present_script]
        rfl
    · rw [show c.run clock cad (some m) = _ from hrun.trans hconclude]
      refine ⟨events, _, hevents, hd.length_le, hdone, hcount, hd.stepCount_le, script clock events, rfl, hpresents, ?_,
        session_actAll_append_present _ _, Or.inr ⟨rfl, _, hover⟩⟩
      rw [← hscript, herror]
  · have hbefore : c.actAll (script clock events ++ [.tick]) = last.tick := by
      rw [actAll_append, ← hscript]
      rfl
    rw [show c.run clock cad (some m) = _ from hrun]
    refine ⟨events, script clock events ++ [.tick] ++ [.present], hevents, hd.length_le, ?_, ?_, hd.stepCount_le,
      script clock events ++ [.tick], rfl, ?_, ?_, session_actAll_append_present _ _, Or.inl ⟨rfl, due, htick⟩⟩
    · rw [actAll_append_present, hbefore]
    · rw [countP_isStep_append_present, List.countP_append, hsteps]
      rfl
    · rw [presentsSucceed_append]
      exact ⟨hpresents, nofun, trivial⟩
    · rw [hbefore, herror]
  · rw [show c.run clock cad (some m) = _ from hrun]
    exact ⟨events, script clock events, hevents, hd.length_le, hscript, hsteps, hd.stepCount_le, rfl, hpresents, hfit⟩

/-- Three steps and two ticks a second, on a link that breaks after one present: the second tick is the last event. -/
example :
    let link := Linked.carrying (Framebuffer.blank .standard) (some 1) ⟨"BrokenPipe", "gone"⟩
    let c := ((start .standard (.ofSeed 0) link (HeldKey.mk none) .working).load [0x12, 0x00] 0x200).2
    (c.run punctual ⟨3, 2⟩ (some 5)).2 = .failed ⟨"BrokenPipe", "gone"⟩ ∧
      (c.run punctual ⟨3, 2⟩ (some 5)).1.session.surface.presents = 2 := by
  decide +kernel

end ChipEight.Console
