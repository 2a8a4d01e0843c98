import ChipEight.Schedule
import ChipEight.Proofs.Guarded.Basic

/-!
# The schedule with every test made

The time of the next step or tick is moved on by a sum of 64 bits. To tell in nanoseconds when an event is due, its time is
multiplied, and divided by the units of a second, in 128 bits, and the quotient must fit 64 bits again, so that nothing is cut off.
An event that the schedule has comes without a trap if its time can be told. Where the schedule ends, the sum traps.
-/

namespace ChipEight.Guarded

/-- One more than the greatest number of 128 bits. -/
def wideLimit : Nat := 0x100000000000000000000000000000000

/-- How many units of virtual time a second has. -/
def unitsPerSecond (s : Schedule) : Guarded Nat := product wideLimit s.stepPeriod s.tickPeriod

/-- A virtual time in whole nanoseconds. -/
def nanoseconds (s : Schedule) (time : Nat) : Guarded Nat := do
  let scaled ← product wideLimit time 1000000000
  narrowed Schedule.timeLimit (← quotient scaled (← unitsPerSecond s))

/-- The next event and the schedule after it. -/
def nextEvent (s : Schedule) : Guarded (TimedEvent × Schedule) := do
  if s.nextTick ≤ s.nextStep then
    let nextTick ← sum Schedule.timeLimit s.nextTick s.tickPeriod
    return (⟨← nanoseconds s s.nextTick, .tick⟩, { s with nextTick })
  else
    let nextStep ← sum Schedule.timeLimit s.nextStep s.stepPeriod
    return (⟨← nanoseconds s s.nextStep, .step⟩, { s with nextStep })

/-- The first events and the schedule after them. -/
def takeEvents (s : Schedule) : Nat → Guarded (List TimedEvent × Schedule)
  | 0 => return ([], s)
  | n + 1 => do
    let first ← nextEvent s
    let others ← takeEvents first.2 n
    return (first.1 :: others.1, others.2)

/-- That a time can be told in nanoseconds: no product passes 128 bits, and the quotient fits 64. -/
structure Telling (s : Schedule) (time : Nat) : Prop where
  scaled : time * 1000000000 < wideLimit
  units : s.unitsPerSecond < wideLimit
  due : time * 1000000000 / s.unitsPerSecond < Schedule.timeLimit

variable {s later : Schedule} {e : TimedEvent} {time : Nat}

/-- A time that can be told is told without a trap. -/
theorem nanoseconds_eq (h : Telling s time) : nanoseconds s time = .ok (s.nanoseconds time) := by
  have hunits : unitsPerSecond s = .ok s.unitsPerSecond := product_eq h.units
  have hpos : 0 < s.unitsPerSecond := Nat.mul_pos s.stepPeriod_pos s.tickPeriod_pos
  rw [nanoseconds, product_eq h.scaled, ok_bind, hunits, ok_bind, quotient_eq hpos, ok_bind, narrowed_eq h.due,
    Schedule.nanoseconds, Nat.mod_eq_of_lt h.due]

/-- The next event does not trap if the schedule has it and its time can be told. -/
theorem nextEvent_eq (hnext : s.next? = some (e, later)) (h : Telling s (min s.nextStep s.nextTick)) :
    nextEvent s = .ok (e, later) := by
  unfold Schedule.next? at hnext
  unfold nextEvent
  split at hnext
  · rename_i hle
    rw [Nat.min_eq_right hle] at h
    split at hnext
    · rename_i hfits
      cases hnext
      rw [if_pos hle, sum_eq hfits, ok_bind, nanoseconds_eq h]
      rfl
    · cases hnext
  · rename_i hlt
    rw [Nat.min_eq_left (Nat.le_of_not_le hlt)] at h
    split at hnext
    · rename_i hfits
      cases hnext
      rw [if_neg hlt, sum_eq hfits, ok_bind, nanoseconds_eq h]
      rfl
    · cases hnext

/-- Where the schedule ends, the next event traps. -/
theorem nextEvent_eq_error (hnext : s.next? = none) : nextEvent s = .error .overflow := by
  unfold Schedule.next? at hnext
  unfold nextEvent
  split at hnext
  · rename_i hle
    split at hnext
    · cases hnext
    · rename_i hpasses
      rw [if_pos hle, sum_eq_error (Nat.not_lt.mp hpasses), error_bind]
  · rename_i hlt
    split at hnext
    · cases hnext
    · rename_i hpasses
      rw [if_neg hlt, sum_eq_error (Nat.not_lt.mp hpasses), error_bind]

end ChipEight.Guarded
