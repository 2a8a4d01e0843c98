import ChipEight.Schedule
import ChipEight.Session.Console

/-!
# Driving a session along its schedule

Every event of the schedule is a step or a tick. On a tick the surface is presented and the keypad is asked whether the session is
to end, so that a program that never looks at a key can still be ended. The drive is over when the session has halted, when all
steps of a limit are used up, or when the surface fails; unless it failed, the surface is presented once more at the end.
-/

namespace ChipEight

/-- How a drive ends. -/
inductive Verdict where
  /-- The session halted, or its steps were used up while it was still running. -/
  | finished (status : Status)
  /-- The surface failed. -/
  | failed (error : DeviceError)
  /-- The schedule ended. -/
  | outOfTime
  deriving DecidableEq, Repr

/-- What comes after an event. -/
inductive Continuation where
  | goOn
  | conclude
  | fail (error : DeviceError)
  deriving DecidableEq, Repr

namespace Console

variable {σ κ : Type} [Surface σ] [Keypad κ]

/-- Goes on while the session is running. -/
def continuation (c : Console σ κ) : Continuation := if c.session.status.isHalted then .conclude else .goOn

/-- Handles one event. `steps` is how many steps were made before it, and a step beyond the limit is not made. -/
def handle (limit : Option Nat) (steps : Nat) (now : Nat) (c : Console σ κ) : Event → Console σ κ × Continuation
  | .tick =>
    match c.tick.present with
    | (some error, c) => (c, .fail error)
    | (none, c) =>
      let c := c.poll now
      (c, c.continuation)
  | .step =>
    if limit.any (· ≤ steps) then (c, .conclude)
    else
      let c := c.step now
      (c, c.continuation)

/-- Presents the surface for the last time. -/
def conclude (c : Console σ κ) : Console σ κ × Verdict :=
  match c.present with
  | (some error, c) => (c, .failed error)
  | (none, c) => (c, .finished c.session.status)

end Console

/-! ## From event to event -/

/-- A drive between two events: the schedule of the events to come, how many steps were made, and the console. -/
structure Stage (σ κ : Type) where
  schedule : Schedule
  steps : Nat
  console : Console σ κ

/-- What a drive comes to by its next event. -/
inductive Progress (σ κ : Type) where
  | goesOn (stage : Stage σ κ)
  | over (console : Console σ κ) (verdict : Verdict)

namespace Stage

variable {σ κ : Type}

/-- When the next event is due. A schedule that has ended is found out at once. -/
def due (s : Stage σ κ) : Nat := (s.schedule.next?.map (·.1.due)).getD 0

variable [Surface σ] [Keypad κ]

/-- Handles the next event at some time. -/
def advance (limit : Option Nat) (now : Nat) (s : Stage σ κ) : Progress σ κ :=
  match s.schedule.next? with
  | none => .over s.console .outOfTime
  | some (timed, later) =>
    match s.console.handle limit s.steps now timed.event with
    | (c, .goOn) => .goesOn ⟨later, if timed.event = .step then s.steps + 1 else s.steps, c⟩
    | (c, .conclude) => .over c.conclude.1 c.conclude.2
    | (c, .fail error) => .over c (.failed error)

/-- A drive that goes on has used an event up. -/
theorem remaining_lt_of_advance {limit : Option Nat} {now : Nat} {s later : Stage σ κ}
    (h : s.advance limit now = .goesOn later) : later.schedule.remaining < s.schedule.remaining := by
  unfold advance at h
  split at h
  · cases h
  · rename_i hnext
    split at h
    · cases h
      exact Schedule.remaining_lt_of_next? hnext
    · cases h
    · cases h

/-- Handles one event after the other until the drive is over. `clock` says at what time the `n`-th event, due at some time, is
really handled, and `events` is how many were handled before. -/
def drive (clock : Nat → Nat → Nat) (limit : Option Nat) (events : Nat) (s : Stage σ κ) : Console σ κ × Verdict :=
  match h : s.advance limit (clock events s.due) with
  | .goesOn later =>
    have := remaining_lt_of_advance h
    later.drive clock limit (events + 1)
  | .over c verdict => (c, verdict)
termination_by s.schedule.remaining

end Stage

namespace Console

variable {σ κ : Type} [Surface σ] [Keypad κ]

/-- A clock by which every event is handled when it is due. -/
def punctual : Nat → Nat → Nat := fun _ due => due

/-- The stage before the first event of a cadence. -/
def setOff (cadence : Cadence) (c : Console σ κ) : Stage σ κ := ⟨.start cadence, 0, c⟩

/-- Drives a session from the start of a cadence's schedule. -/
def run (clock : Nat → Nat → Nat) (cadence : Cadence) (limit : Option Nat) (c : Console σ κ) : Console σ κ × Verdict :=
  (c.setOff cadence).drive clock limit 0

end Console

end ChipEight
