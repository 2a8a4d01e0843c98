import ChipEight.Drive
import ChipEight.Proofs.Reachable
import ChipEight.Proofs.Lemmas.Schedule
import Mathlib.Data.List.Induction

/-!
# What a drive does to a console

A drive handles the events of its schedule one after the other, and each of them brings it from one stage to the next.
`Console.Driven` is where it has come to after some events, and `Console.Ends` is how it is over there; every drive ends in one of
the four ways (`Console.Driven.ends`). The events that were handled are the first ones of the schedule, and what they did to the
console is a script of actions (`Console.script`).
-/

namespace ChipEight

open Schedule

/-- Whether an action is one instruction. -/
def Action.isStep {α : Type} : Action α → Bool
  | .step _ => true
  | _ => false

/-- What is done in an event that is handled at some time. -/
def Event.actions (now : Nat) : Event → List (Action Nat)
  | .step => [.step now]
  | .tick => [.tick, .present, .poll now]

/-! ## From one stage to the next -/

namespace Stage

variable {σ κ : Type} {schedule later : Schedule} {steps : Nat} {c c' : Console σ κ} {e : TimedEvent}

/-- A stage waits for the next event of its schedule. -/
theorem due_of_next? (h : schedule.next? = some (e, later)) : due ⟨schedule, steps, c⟩ = e.due := by
  rw [due, h]
  rfl

variable [Surface σ] [Keypad κ] {limit : Option Nat} {now : Nat}

/-- Where the schedule ends, the drive is over. -/
theorem advance_of_outOfTime (h : schedule.next? = none) : advance limit now ⟨schedule, steps, c⟩ = .over c .outOfTime := by
  rw [advance, h]

/-- After an event that lets the drive go on comes the stage with one event less. -/
theorem advance_of_goOn (hnext : schedule.next? = some (e, later)) (h : c.handle limit steps now e.event = (c', .goOn)) :
    advance limit now ⟨schedule, steps, c⟩ = .goesOn ⟨later, if e.event = .step then steps + 1 else steps, c'⟩ := by
  simp only [advance, hnext, h]

/-- An event that ends the drive is followed by the last present. -/
theorem advance_of_conclude (hnext : schedule.next? = some (e, later))
    (h : c.handle limit steps now e.event = (c', .conclude)) :
    advance limit now ⟨schedule, steps, c⟩ = .over c'.conclude.1 c'.conclude.2 := by
  simp only [advance, hnext, h]

/-- An event in which the surface fails ends the drive at once. -/
theorem advance_of_fail {error : DeviceError} (hnext : schedule.next? = some (e, later))
    (h : c.handle limit steps now e.event = (c', .fail error)) :
    advance limit now ⟨schedule, steps, c⟩ = .over c' (.failed error) := by
  simp only [advance, hnext, h]

variable {clock : Nat → Nat → Nat} {n : Nat} {s t : Stage σ κ}

/-- A drive that goes on is the drive from the next stage. -/
theorem drive_of_goesOn (h : s.advance limit (clock n s.due) = .goesOn t) :
    s.drive clock limit n = t.drive clock limit (n + 1) := by
  rw [drive]
  split
  · rename_i hgoes
    cases h.symm.trans hgoes
    rfl
  · rename_i hover
    cases h.symm.trans hover

/-- A drive that is over has come to its result. -/
theorem drive_of_over {v : Verdict} (h : s.advance limit (clock n s.due) = .over c v) : s.drive clock limit n = (c, v) := by
  rw [drive]
  split
  · rename_i hgoes
    cases h.symm.trans hgoes
  · rename_i hover
    cases h.symm.trans hover
    rfl

end Stage

namespace Console

/-- What is done in some events, one after the other. `clock` says at what time the `n`-th of them is handled. -/
def script (clock : Nat → Nat → Nat) (events : List TimedEvent) : List (Action Nat) :=
  events.zipIdx.flatMap fun p => p.1.event.actions (clock p.2 p.1.due)

section

variable (clock : Nat → Nat → Nat) (events : List TimedEvent)

theorem script_append_singleton (e : TimedEvent) :
    script clock (events ++ [e]) = script clock events ++ e.event.actions (clock events.length e.due) := by
  simp [script, List.zipIdx_append]

/-- What is done once in some events and in no others is done in a script as often as there are such events. -/
theorem countP_script {p : Action Nat → Bool} {q : TimedEvent → Bool}
    (h : ∀ (now : Nat) (e : TimedEvent), (e.event.actions now).countP p = [e].countP q) :
    (script clock events).countP p = events.countP q := by
  induction events using List.reverseRecOn with
  | nil => rfl
  | append_singleton events e ih => rw [script_append_singleton, List.countP_append, ih, h, List.countP_append]

/-- The instructions of a script are the steps among its events. -/
theorem countP_isStep_script : (script clock events).countP Action.isStep = stepCount events :=
  countP_script clock events fun _ e => by obtain ⟨due, _ | _⟩ := e <;> rfl

/-- The presents of a script are the ticks among its events. -/
theorem count_present_script : (script clock events).count .present = tickCount events :=
  countP_script clock events fun _ e => by obtain ⟨due, _ | _⟩ := e <;> rfl

/-- The timers tick in a script as often as there are ticks among its events. -/
theorem count_tick_script : (script clock events).count .tick = tickCount events :=
  countP_script clock events fun _ e => by obtain ⟨due, _ | _⟩ := e <;> rfl

/-- A present at the end is no step. -/
theorem countP_isStep_append_present (actions : List (Action Nat)) :
    (actions ++ [Action.present]).countP Action.isStep = actions.countP Action.isStep :=
  List.countP_append

end

variable {σ κ : Type} [Surface σ] [Keypad κ]

/-! ## Presents that succeed -/

/-- That every present among some actions succeeds. -/
def PresentsSucceed (c : Console σ κ) : List (Action Nat) → Prop
  | [] => True
  | a :: rest => (a = .present → c.present.1 = none) ∧ (c.act a).PresentsSucceed rest

theorem actAll_append (c : Console σ κ) (actions more : List (Action Nat)) :
    c.actAll (actions ++ more) = (c.actAll actions).actAll more :=
  List.foldl_append

theorem actAll_append_present (c : Console σ κ) (actions : List (Action Nat)) :
    c.actAll (actions ++ [.present]) = (c.actAll actions).present.2 :=
  c.actAll_append actions [.present]

theorem presentsSucceed_append {c : Console σ κ} {actions more : List (Action Nat)} :
    c.PresentsSucceed (actions ++ more) ↔ c.PresentsSucceed actions ∧ (c.actAll actions).PresentsSucceed more := by
  induction actions generalizing c with
  | nil => exact iff_of_eq (true_and _).symm
  | cons a rest ih =>
    show _ ∧ (c.act a).PresentsSucceed (rest ++ more) ↔ (_ ∧ (c.act a).PresentsSucceed rest) ∧ _
    rw [ih, and_assoc]
    rfl

/-- On a surface that does not fail all presents succeed. -/
theorem presentsSucceed_of_forall (hsurface : ∀ surface : σ, (Surface.present surface).1 = none) (c : Console σ κ)
    (actions : List (Action Nat)) : c.PresentsSucceed actions := by
  induction actions generalizing c with
  | nil => trivial
  | cons a rest ih => exact ⟨fun _ => hsurface _, ih _⟩

/-! ## Status and verdict -/

omit [Surface σ] [Keypad κ] in
/-- A tick does not halt a session, and does not wake it up. -/
theorem status_tick (c : Console σ κ) : c.tick.session.status = c.session.status := by
  rw [tick, session_settle]
  rfl

omit [Keypad κ] in
/-- A present does not halt a session, and does not wake it up. -/
theorem status_present (c : Console σ κ) : c.present.2.session.status = c.session.status := rfl

omit [Surface σ] in
/-- A poll that finds the wish to end halts a running session. -/
theorem status_poll_of_cancel {c : Console σ κ} {now : Nat} (h : c.session.status = .running)
    (hl : (Keypad.look c.keypad now).1 = some .cancel) : (c.poll now).session.status = .halted .cancelled := by
  rw [poll, session_settle]
  show (c.session.poll (Keypad.look c.keypad now).1).1.status = .halted .cancelled
  rw [hl, Session.poll, h]
  rfl

/-- A tick finds the wish to end if the keypad answers with it before the tick, since neither the timers nor a present touch the
keypad. -/
theorem status_tick_of_cancel {c : Console σ κ} {now : Nat} (h : c.session.status = .running)
    (hl : (Keypad.look c.keypad now).1 = some .cancel) :
    (c.actAll (Event.tick.actions now)).session.status = .halted .cancelled := by
  have hstatus : c.tick.present.2.session.status = .running := c.tick.status_present.trans (c.status_tick.trans h)
  have hkeypad : c.tick.present.2.keypad = c.keypad := keypad_foldl_hear _ _
  show (c.tick.present.2.poll now).session.status = .halted .cancelled
  exact status_poll_of_cancel hstatus (by rw [hkeypad, hl])

omit [Surface σ] [Keypad κ] in
theorem continuation_of_running {c : Console σ κ} (h : c.session.status = .running) : c.continuation = .goOn := by
  rw [continuation, h]
  rfl

omit [Surface σ] [Keypad κ] in
theorem continuation_of_halted {c : Console σ κ} {reason : HaltReason} (h : c.session.status = .halted reason) :
    c.continuation = .conclude := by
  rw [continuation, h]
  rfl

/-- What an event does to the status is done by the last of its actions, the step or the poll. -/
theorem actions_eq_append (now : Nat) (e : Event) :
    ∃ front last, e.actions now = front ++ [last] ∧
      ∀ c : Console σ κ, (c.actAll front).session.status = c.session.status := by
  cases e with
  | step => exact ⟨[], .step now, rfl, fun _ => rfl⟩
  | tick => exact ⟨[.tick, .present], .poll now, rfl, fun c => c.status_tick⟩

omit [Keypad κ] in
/-- The last present decides whether a drive that is over has failed. -/
theorem conclude_cases (c : Console σ κ) :
    (c.present.1 = none ∧ c.conclude = (c.present.2, .finished c.session.status)) ∨
      ∃ error, c.present.1 = some error ∧ c.conclude = (c.present.2, .failed error) := by
  have hstatus := c.status_present
  unfold conclude
  cases hp : c.present with
  | mk answer presented =>
    rw [hp] at hstatus
    cases answer with
    | none => exact Or.inl ⟨rfl, by rw [← hstatus]⟩
    | some error => exact Or.inr ⟨error, rfl, rfl⟩

/-! ## One event -/

/-- That a drive handles an event: a step that is not beyond the limit, or a tick whose present succeeds. -/
inductive Handles (limit : Option Nat) (steps : Nat) (c : Console σ κ) : Event → Prop where
  | step (h : limit.any (· ≤ steps) = false) : Handles limit steps c .step
  | tick (h : c.tick.present.1 = none) : Handles limit steps c .tick

theorem Handles.presentsSucceed {limit : Option Nat} {steps : Nat} {c : Console σ κ} {e : Event} (h : c.Handles limit steps e)
    (now : Nat) : c.PresentsSucceed (e.actions now) := by
  cases h with
  | step _ => exact ⟨nofun, trivial⟩
  | tick h => exact ⟨nofun, fun _ => h, nofun, trivial⟩

/-- What a drive makes of an event: it does what the event asks for, or it finds the steps used up or the surface failing. -/
theorem handle_cases (limit : Option Nat) (steps now : Nat) (c : Console σ κ) (e : Event) :
    (c.Handles limit steps e ∧
        c.handle limit steps now e = (c.actAll (e.actions now), (c.actAll (e.actions now)).continuation)) ∨
      (e = .step ∧ limit.any (· ≤ steps) = true ∧ c.handle limit steps now e = (c, .conclude)) ∨
      ∃ error, e = .tick ∧ c.tick.present.1 = some error ∧ c.handle limit steps now e = (c.tick.present.2, .fail error) := by
  cases e with
  | step =>
    cases hl : limit.any (· ≤ steps) with
    | true => exact Or.inr (Or.inl ⟨rfl, rfl, by simp only [handle, hl, if_true]⟩)
    | false => exact Or.inl ⟨.step hl, by rw [handle, hl]; rfl⟩
  | tick =>
    cases hp : c.tick.present with
    | mk answer presented =>
      cases answer with
      | some error => exact Or.inr (Or.inr ⟨error, rfl, rfl, by simp only [handle, hp]⟩)
      | none =>
        refine Or.inl ⟨.tick (by rw [hp]), ?_⟩
        have hact : c.actAll (Event.tick.actions now) = presented.poll now := by
          show c.tick.present.2.poll now = _
          rw [hp]
        simp only [handle, hp, hact]

/-! ## One event after the other -/

/-- Where a drive of a cadence has come to after some events: the schedule and the console it has then. After an event it goes on
only if the session is running. -/
inductive Driven (clock : Nat → Nat → Nat) (limit : Option Nat) (cad : Cadence) (c₀ : Console σ κ) :
    List TimedEvent → Schedule → Console σ κ → Prop where
  | start : Driven clock limit cad c₀ [] (.start cad) c₀
  | event {events : List TimedEvent} {e : TimedEvent} {s later : Schedule} {c : Console σ κ}
      (h : Driven clock limit cad c₀ events s c) (hgo : events = [] ∨ c.session.status = .running)
      (hnext : s.next? = some (e, later)) (hhandles : c.Handles limit (stepCount events) e.event) :
      Driven clock limit cad c₀ (events ++ [e]) later (c.actAll (e.event.actions (clock events.length e.due)))

/-- How a drive is over after some events, with its result: there is no event any more, the next one is a step too many, the next
one is a tick and the surface fails, or the session has halted. -/
inductive Ends (limit : Option Nat) (events : List TimedEvent) (s : Schedule) (c : Console σ κ) :
    Console σ κ × Verdict → Prop where
  | outOfTime (hgo : events = [] ∨ c.session.status = .running) (hnext : s.next? = none) :
      Ends limit events s c (c, .outOfTime)
  | usedUp {due : Nat} {later : Schedule} (hgo : events = [] ∨ c.session.status = .running)
      (hnext : s.next? = some (⟨due, .step⟩, later)) (hlimit : limit.any (· ≤ stepCount events) = true) :
      Ends limit events s c c.conclude
  | failed {due : Nat} {later : Schedule} {error : DeviceError} (hgo : events = [] ∨ c.session.status = .running)
      (hnext : s.next? = some (⟨due, .tick⟩, later)) (herror : c.tick.present.1 = some error) :
      Ends limit events s c (c.tick.present.2, .failed error)
  | halted {reason : HaltReason} (hne : events ≠ []) (h : c.session.status = .halted reason) : Ends limit events s c c.conclude

section

variable {clock : Nat → Nat → Nat} {limit : Option Nat} {cad : Cadence} {c₀ c : Console σ κ} {events : List TimedEvent}
  {s : Schedule}

/-- A drive goes on from where it has come to until it is over in one of the four ways. -/
theorem Driven.ends (h : Driven clock limit cad c₀ events s c) (hgo : events = [] ∨ c.session.status = .running) :
    ∃ events' s' c', Driven clock limit cad c₀ events' s' c' ∧
      c'.Ends limit events' s' (Stage.drive clock limit events.length ⟨s, stepCount events, c⟩) := by
  induction hn : s.remaining using Nat.strongRecOn generalizing events s c with
  | _ n ih =>
    subst hn
    cases hnext : s.next? with
    | none =>
      rw [Stage.drive_of_over (Stage.advance_of_outOfTime hnext)]
      exact ⟨events, s, c, h, .outOfTime hgo hnext⟩
    | some next =>
      obtain ⟨⟨due, event⟩, later⟩ := next
      have hdue : Stage.due ⟨s, stepCount events, c⟩ = due := Stage.due_of_next? hnext
      rcases c.handle_cases limit (stepCount events) (clock events.length due) event with
        ⟨hhandles, heq⟩ | ⟨rfl, hlimit, heq⟩ | ⟨error, rfl, herror, heq⟩
      · have hlater := h.event hgo hnext hhandles
        cases hstatus : (c.actAll (event.actions (clock events.length due))).session.status with
        | halted reason =>
          rw [continuation_of_halted hstatus, ← hdue] at heq
          rw [Stage.drive_of_over (Stage.advance_of_conclude hnext heq), hdue]
          exact ⟨_, later, _, hlater, .halted (List.append_ne_nil_of_right_ne_nil _ (List.cons_ne_nil _ _)) hstatus⟩
        | running =>
          have hrest := ih later.remaining (remaining_lt_of_next? hnext) hlater (Or.inr hstatus) rfl
          have hsteps : stepCount (events ++ [⟨due, event⟩]) =
              if event = .step then stepCount events + 1 else stepCount events := by
            rw [stepCount_append]
            cases event <;> rfl
          rw [List.length_append, List.length_singleton, hsteps] at hrest
          rw [continuation_of_running hstatus, ← hdue] at heq
          rw [Stage.drive_of_goesOn (Stage.advance_of_goOn hnext heq), hdue]
          exact hrest
      · rw [← hdue] at heq
        rw [Stage.drive_of_over (Stage.advance_of_conclude hnext heq)]
        exact ⟨events, s, c, h, .usedUp hgo hnext hlimit⟩
      · rw [← hdue] at heq
        rw [Stage.drive_of_over (Stage.advance_of_fail hnext heq)]
        exact ⟨events, s, c, h, .failed hgo hnext herror⟩

/-- What a drive has done to the console is the script of the events it has handled. -/
theorem Driven.eq_actAll (h : Driven clock limit cad c₀ events s c) : c = c₀.actAll (script clock events) := by
  induction h with
  | start => rfl
  | event _ _ _ _ ih => rw [script_append_singleton, actAll_append, ← ih]

/-- A drive goes on only as long as the surface does not fail. -/
theorem Driven.presentsSucceed (h : Driven clock limit cad c₀ events s c) : c₀.PresentsSucceed (script clock events) := by
  induction h with
  | start => trivial
  | event h _ _ hhandles ih =>
    rw [script_append_singleton, presentsSucceed_append, ← h.eq_actAll]
    exact ⟨ih, hhandles.presentsSucceed _⟩

/-- A drive makes no more steps than its limit. -/
theorem Driven.stepCount_le {m : Nat} (h : Driven clock (some m) cad c₀ events s c) : stepCount events ≤ m := by
  induction h with
  | start => exact Nat.zero_le m
  | @event events e _ _ _ _ _ _ hhandles ih =>
    obtain ⟨due, event⟩ := e
    cases hhandles with
    | step hlimit =>
      rw [Option.any_some, decide_eq_false_iff_not] at hlimit
      rw [stepCount_append, stepCount_cons_step]
      exact Nat.not_le.mp hlimit
    | tick _ =>
      rw [stepCount_append, stepCount_cons_tick]
      exact ih

/-- The events that a drive has handled are the first events of the cadence, and it has the schedule after them. -/
theorem Driven.take_eq (h : Driven clock limit cad c₀ events s c) : (Schedule.start cad).take events.length = (events, s) := by
  induction h with
  | start => rfl
  | event _ _ hnext _ ih =>
    rw [List.length_append]
    exact take_succ_of_next? ih rfl hnext

/-- The events that a drive has handled are the first events of the cadence. -/
theorem Driven.events_eq (h : Driven clock limit cad c₀ events s c) : cad.events events.length = events :=
  congrArg Prod.fst h.take_eq

/-- The schedule of a drive is determined by how many steps and ticks it has handled. -/
theorem Driven.schedule_eq (h : Driven clock limit cad c₀ events s c) : s = after cad (stepCount events) (tickCount events) := by
  have hstate := (take_after cad events.length (Merged.zero cad.tickRate_pos)).1
  rwa [Nat.zero_add, Nat.zero_add, ← start_eq_after, h.take_eq] at hstate

/-- The steps and ticks that a drive has handled are those of a front of the merged clocks. -/
theorem Driven.merged (h : Driven clock limit cad c₀ events s c) :
    Merged cad.stepRate cad.tickRate (stepCount events) (tickCount events) := by
  rw [← h.events_eq]
  exact Cadence.merged_events cad _

/-- A drive whose schedule is at its end has come to a time that does not fit. -/
theorem Driven.not_fits (h : Driven clock limit cad c₀ events s c) (hnext : s.next? = none) :
    ¬ cad.Fits (events.length + 1) := by
  intro hfit
  have hlen := Cadence.length_events_eq_iff.mpr hfit
  have hget : (cad.events (events.length + 1))[events.length]? = _ := Cadence.getElem?_events (Nat.lt_succ_self _)
  rw [h.events_eq, ← h.schedule_eq, hnext, Option.map_none, List.getElem?_eq_none_iff, hlen] at hget
  exact absurd hget (Nat.not_succ_le_self _)

/-- The first event is a step. -/
theorem Driven.event_of_nil {e : TimedEvent} {later : Schedule} (h : Driven clock limit cad c₀ [] s c)
    (hnext : s.next? = some (e, later)) : e.event = .step := by
  rw [h.schedule_eq] at hnext
  rcases of_next?_after hnext with ⟨hle, -, -⟩ | ⟨-, he, -⟩
  · have hticks : (0 + 1) * cad.stepRate ≤ 0 * cad.tickRate := hle
    have := cad.stepRate_pos
    omega
  · rw [he]

end

end Console

end ChipEight
