/-!
# The schedule of steps and ticks

A session is driven by two clocks, one for instructions and one for the timers. The schedule merges them into one stream of events
in virtual time, so the order of steps and ticks is the same in every run.

Virtual time is counted in units of one second divided by the product of the two rates, so that both periods are whole: a step
every `timer rate` units and a tick every `cpu rate` units. Steps start at zero and ticks one period in; of a step and a tick that
are due together, the tick comes first. Times are kept in 64 bits, and the schedule ends where a time would not fit.
-/

namespace ChipEight

/-- The two rates, in hertz. Zero counts as one. -/
structure Cadence where
  cpuHz : UInt32
  timerHz : UInt32
  deriving DecidableEq, Repr

/-- What a session is asked to do next. -/
inductive Event where
  | step
  | tick
  deriving DecidableEq, Repr

/-- An event, and how many nanoseconds after the start it is due. -/
structure TimedEvent where
  due : Nat
  event : Event
  deriving DecidableEq, Repr

/-- The times of the next step and the next tick, and their periods. -/
structure Schedule where
  stepPeriod : Nat
  tickPeriod : Nat
  stepPeriod_pos : 0 < stepPeriod
  tickPeriod_pos : 0 < tickPeriod
  nextStep : Nat
  nextTick : Nat

namespace Schedule

/-- A bound above all times. -/
def timeLimit : Nat := 0x10000000000000000

/-- The schedule of a cadence, at its start. -/
def start (c : Cadence) : Schedule where
  stepPeriod := max c.timerHz.toNat 1
  tickPeriod := max c.cpuHz.toNat 1
  stepPeriod_pos := by omega
  tickPeriod_pos := by omega
  nextStep := 0
  nextTick := max c.cpuHz.toNat 1

/-- How many units of virtual time a second has. -/
def unitsPerSecond (s : Schedule) : Nat := s.stepPeriod * s.tickPeriod

/-- A virtual time in whole nanoseconds, kept in 64 bits. -/
def nanoseconds (s : Schedule) (time : Nat) : Nat := time * 1000000000 / s.unitsPerSecond % timeLimit

/-- The next event and the schedule after it, unless the time of the event after it does not fit. -/
def next? (s : Schedule) : Option (TimedEvent × Schedule) :=
  if s.nextTick ≤ s.nextStep then
    if s.nextTick + s.tickPeriod < timeLimit then
      some (⟨s.nanoseconds s.nextTick, .tick⟩, { s with nextTick := s.nextTick + s.tickPeriod })
    else none
  else
    if s.nextStep + s.stepPeriod < timeLimit then
      some (⟨s.nanoseconds s.nextStep, .step⟩, { s with nextStep := s.nextStep + s.stepPeriod })
    else none

/-- The first events, fewer if the schedule ends before, and the schedule after them. -/
def take (s : Schedule) : Nat → List TimedEvent × Schedule
  | 0 => ([], s)
  | n + 1 =>
    match s.next? with
    | none => ([], s)
    | some (e, s) =>
      let others := s.take n
      (e :: others.1, others.2)

/-- The schedule with its first events left out. -/
def drop (s : Schedule) : Nat → Schedule
  | 0 => s
  | n + 1 =>
    match s.next? with
    | none => s
    | some (_, s) => s.drop n

/-- How much time is left before the limit. Every event uses some of it. -/
def remaining (s : Schedule) : Nat := (timeLimit - s.nextStep) + (timeLimit - s.nextTick)

theorem remaining_lt_of_next? {s t : Schedule} {e : TimedEvent} (h : s.next? = some (e, t)) : t.remaining < s.remaining := by
  have := s.stepPeriod_pos
  have := s.tickPeriod_pos
  unfold next? at h
  split at h
  · split at h
    · cases h
      simp only [remaining]
      omega
    · cases h
  · split at h
    · cases h
      simp only [remaining]
      omega
    · cases h

end Schedule

end ChipEight
