import ChipEight.Schedule
import Mathlib.Algebra.Order.Floor.Div

/-!
# How far a schedule has come

After some events a schedule is determined by how many of them were steps and how many were ticks (`Schedule.after`), and of the
two numbers their sum determines both (`Schedule.Merged.unique`). `Schedule.Merged` is the invariant: neither clock is ahead of the
other by more than the next event.
-/

namespace ChipEight

/-- How many steps a second has. -/
def Cadence.stepRate (c : Cadence) : Nat := max c.cpuHz.toNat 1

/-- How many ticks a second has. -/
def Cadence.tickRate (c : Cadence) : Nat := max c.timerHz.toNat 1

theorem Cadence.stepRate_pos (c : Cadence) : 0 < c.stepRate := Nat.lt_of_lt_of_le Nat.one_pos (Nat.le_max_right _ _)

theorem Cadence.tickRate_pos (c : Cadence) : 0 < c.tickRate := Nat.lt_of_lt_of_le Nat.one_pos (Nat.le_max_right _ _)

namespace Schedule

/-! ## Two clocks -/

/-- Of a clock with `c` steps a second, from zero on, and one with `t` ticks a second, from one period on, the first `k + j` events
are `k` steps and `j` ticks, where a tick comes before a step that is due with it: the last tick is not due after the next step, and
the last step is due before the next tick. Times are in units of one second divided by `c * t`. -/
structure Merged (c t k j : Nat) : Prop where
  tick_le : j * c ≤ k * t
  step_lt : k * t < (j + 1) * c + t

section

variable {c t k j k' j' : Nat}

theorem Merged.zero (ht : 0 < t) : Merged c t 0 0 := ⟨by omega, by omega⟩

/-- A step that is due before the next tick comes next. -/
theorem Merged.step (h : Merged c t k j) (hlt : k * t < (j + 1) * c) : Merged c t (k + 1) j := by
  have hsucc : (k + 1) * t = k * t + t := Nat.succ_mul k t
  have := h.tick_le
  exact ⟨by omega, by omega⟩

/-- A tick that is not due after the next step comes next. -/
theorem Merged.tick (h : Merged c t k j) (hle : (j + 1) * c ≤ k * t) : Merged c t k (j + 1) := by
  have hsucc : (j + 1 + 1) * c = (j + 1) * c + c := Nat.succ_mul (j + 1) c
  have := h.step_lt
  exact ⟨hle, by omega⟩

/-- Before a step the number of ticks is a quotient, rounded down. -/
theorem Merged.ticks_eq_div (h : Merged c t k j) (hlt : k * t < (j + 1) * c) : j = k * t / c :=
  (Nat.div_eq_of_lt_le h.tick_le hlt).symm

/-- Before a tick the number of steps is a quotient, rounded up. -/
theorem Merged.steps_eq_ceilDiv (h : Merged c t k j) (ht : 0 < t) (hle : (j + 1) * c ≤ k * t) : k = (j + 1) * c ⌈/⌉ t := by
  have hlt := h.step_lt
  have hsucc : (k + 1) * t = k * t + t := Nat.succ_mul k t
  rw [Nat.ceilDiv_eq_add_pred_div]
  exact (Nat.div_eq_of_lt_le (by omega) (by omega)).symm

/-- The place of a step: before it there are as many ticks as the quotient says. -/
theorem merged_step_place (hc : 0 < c) (k : Nat) : Merged c t k (k * t / c) ∧ k * t < (k * t / c + 1) * c := by
  have hle : k * t / c * c ≤ k * t := Nat.div_mul_le_self _ _
  have hlt : k * t < (k * t / c + 1) * c := Nat.lt_mul_of_div_lt (Nat.lt_succ_self _) hc
  exact ⟨⟨hle, by omega⟩, hlt⟩

/-- The place of a tick: before it there are as many steps as the quotient says. -/
theorem merged_tick_place (hc : 0 < c) (ht : 0 < t) (j : Nat) :
    Merged c t ((j + 1) * c ⌈/⌉ t) j ∧ (j + 1) * c ≤ ((j + 1) * c ⌈/⌉ t) * t := by
  rw [Nat.ceilDiv_eq_add_pred_div]
  have hsucc : (j + 1) * c = j * c + c := Nat.succ_mul j c
  have hle : ((j + 1) * c + t - 1) / t * t ≤ (j + 1) * c + t - 1 := Nat.div_mul_le_self _ _
  have hlt : (j + 1) * c + t - 1 < (((j + 1) * c + t - 1) / t + 1) * t := Nat.lt_mul_of_div_lt (Nat.lt_succ_self _) ht
  have hquotient : (((j + 1) * c + t - 1) / t + 1) * t = ((j + 1) * c + t - 1) / t * t + t := Nat.succ_mul _ t
  exact ⟨⟨by omega, by omega⟩, by omega⟩

/-- How many of the first events are ticks. -/
theorem Merged.ticks_eq (h : Merged c t k j) : j = (k + j) * t / (c + t) := by
  have hle := h.tick_le
  have hlt := h.step_lt
  have hsum : (k + j) * t = k * t + j * t := Nat.add_mul k j t
  have hj : j * (c + t) = j * c + j * t := Nat.mul_add j c t
  have hj' : (j + 1) * (c + t) = (j + 1) * c + (j * t + t) := by rw [Nat.mul_add, Nat.succ_mul j t]
  exact (Nat.div_eq_of_lt_le (by omega) (by omega)).symm

/-- The number of events determines how many of them are steps and how many are ticks. -/
theorem Merged.unique (h : Merged c t k j) (h' : Merged c t k' j') (hsum : k + j = k' + j') : k = k' ∧ j = j' := by
  have hj : j = j' := by rw [h.ticks_eq, h'.ticks_eq, hsum]
  exact ⟨by omega, hj⟩

/-- One period of the two clocks has `c / gcd c t` steps and `t / gcd c t` ticks. -/
theorem period_eq (c t : Nat) : t / c.gcd t * c = c / c.gcd t * t := by
  rw [Nat.div_mul_right_comm (Nat.gcd_dvd_right c t), Nat.div_mul_right_comm (Nat.gcd_dvd_left c t), Nat.mul_comm]

/-- After a period the clocks stand to each other as before. -/
theorem Merged.add_period (h : Merged c t k j) : Merged c t (k + c / c.gcd t) (j + t / c.gcd t) := by
  have hperiod := period_eq c t
  have hle := h.tick_le
  have hlt := h.step_lt
  constructor
  · rw [Nat.add_mul, Nat.add_mul]
    omega
  · rw [Nat.add_right_comm, Nat.add_mul, Nat.add_mul (j + 1)]
    omega

end

/-! ## The schedule of a cadence -/

variable (cad : Cadence)

/-- The schedule of a cadence after some steps and some ticks. -/
def after (k j : Nat) : Schedule :=
  { start cad with nextStep := k * cad.tickRate, nextTick := (j + 1) * cad.stepRate }

theorem start_eq_after : start cad = after cad 0 0 := by
  simp [start, after, Cadence.stepRate]

/-- When a step is due, in nanoseconds. -/
def stepDue (k : Nat) : Nat := k * 1000000000 / cad.stepRate

/-- When a tick is due, in nanoseconds. -/
def tickDue (j : Nat) : Nat := j * 1000000000 / cad.tickRate

theorem nanoseconds_step (k j n : Nat) : (after cad k j).nanoseconds (n * cad.tickRate) = stepDue cad n % timeLimit := by
  have hunits : (after cad k j).unitsPerSecond = cad.tickRate * cad.stepRate := rfl
  rw [nanoseconds, hunits, stepDue, Nat.mul_right_comm, Nat.mul_comm (n * 1000000000),
    Nat.mul_div_mul_left _ _ cad.tickRate_pos]

theorem nanoseconds_tick (k j n : Nat) : (after cad k j).nanoseconds (n * cad.stepRate) = tickDue cad n % timeLimit := by
  have hunits : (after cad k j).unitsPerSecond = cad.tickRate * cad.stepRate := rfl
  rw [nanoseconds, hunits, tickDue, Nat.mul_right_comm, Nat.mul_div_mul_right _ _ cad.stepRate_pos]

/-- What comes next after some steps and ticks. -/
theorem next?_after (k j : Nat) :
    (after cad k j).next? =
      if (j + 1) * cad.stepRate ≤ k * cad.tickRate then
        if (j + 2) * cad.stepRate < timeLimit then some (⟨tickDue cad (j + 1) % timeLimit, .tick⟩, after cad k (j + 1)) else none
      else
        if (k + 1) * cad.tickRate < timeLimit then some (⟨stepDue cad k % timeLimit, .step⟩, after cad (k + 1) j) else none := by
  have hj : (j + 2) * cad.stepRate = (j + 1) * cad.stepRate + cad.stepRate := Nat.succ_mul (j + 1) _
  have hk : (k + 1) * cad.tickRate = k * cad.tickRate + cad.tickRate := Nat.succ_mul k _
  have htick : after cad k (j + 1) = { after cad k j with nextTick := (j + 1) * cad.stepRate + cad.stepRate } := by
    simp only [after, hj]
  have hstep : after cad (k + 1) j = { after cad k j with nextStep := k * cad.tickRate + cad.tickRate } := by
    simp only [after, hk]
  rw [htick, hstep, hj, hk, ← nanoseconds_step cad k j, ← nanoseconds_tick cad k j]
  rfl

/-- An event that comes next is a tick that is not due after the next step, or a step that is due before the next tick. -/
theorem of_next?_after {cad : Cadence} {k j : Nat} {e : TimedEvent} {s : Schedule} (h : (after cad k j).next? = some (e, s)) :
    (j + 1) * cad.stepRate ≤ k * cad.tickRate ∧ e = ⟨tickDue cad (j + 1) % timeLimit, .tick⟩ ∧ s = after cad k (j + 1) ∨
      k * cad.tickRate < (j + 1) * cad.stepRate ∧ e = ⟨stepDue cad k % timeLimit, .step⟩ ∧ s = after cad (k + 1) j := by
  rw [next?_after] at h
  split at h
  · rename_i hle
    split at h
    · cases h
      exact Or.inl ⟨hle, rfl, rfl⟩
    · cases h
  · rename_i hlt
    split at h
    · cases h
      exact Or.inr ⟨Nat.not_le.mp hlt, rfl, rfl⟩
    · cases h

/-! ## The first events -/

/-- The first events are the front of the first events of a greater number. -/
theorem take_take (s : Schedule) {i n : Nat} (h : i ≤ n) : (s.take n).1.take i = (s.take i).1 := by
  induction i generalizing s n with
  | zero => rfl
  | succ i ih =>
    obtain ⟨n, rfl⟩ : ∃ m, n = m + 1 := ⟨n - 1, by omega⟩
    unfold take
    cases hn : s.next? with
    | none => rfl
    | some p => exact congrArg (p.1 :: ·) (ih p.2 (Nat.le_of_succ_le_succ h))

/-- The event at a place is the one that comes next after the events before it. -/
theorem getElem?_take (s : Schedule) {i n : Nat} (h : i < n) : (s.take n).1[i]? = (s.take i).2.next?.map Prod.fst := by
  induction i generalizing s n with
  | zero =>
    obtain ⟨n, rfl⟩ : ∃ m, n = m + 1 := ⟨n - 1, by omega⟩
    unfold take
    cases s.next? with
    | none => rfl
    | some p => rfl
  | succ i ih =>
    obtain ⟨n, rfl⟩ : ∃ m, n = m + 1 := ⟨n - 1, by omega⟩
    unfold take
    cases hn : s.next? with
    | none => simp [hn]
    | some p => exact ih p.2 (Nat.lt_of_succ_lt_succ h)

/-- The event that comes next after the first events is the last of one event more. -/
theorem take_succ_of_next? {s t later : Schedule} {n : Nat} {events : List TimedEvent} {e : TimedEvent}
    (h : s.take n = (events, t)) (hlen : events.length = n) (hn : t.next? = some (e, later)) :
    s.take (n + 1) = (events ++ [e], later) := by
  induction n generalizing s events with
  | zero =>
    cases h
    simp only [take, hn, List.nil_append]
  | succ n ih =>
    unfold take at h ⊢
    cases hs : s.next? with
    | none =>
      rw [hs] at h
      cases h
      cases hlen
    | some p =>
      rw [hs] at h
      cases h
      simp only [ih rfl (Nat.succ.inj hlen)]
      rfl

/-- How many of some events are steps. -/
def stepCount (events : List TimedEvent) : Nat := events.countP (·.event = .step)

/-- How many of some events are ticks. -/
def tickCount (events : List TimedEvent) : Nat := events.countP (·.event = .tick)

section

variable (due : Nat) (events more : List TimedEvent)

@[simp] theorem stepCount_cons_step : stepCount (⟨due, .step⟩ :: events) = stepCount events + 1 := by simp [stepCount]

@[simp] theorem stepCount_cons_tick : stepCount (⟨due, .tick⟩ :: events) = stepCount events := by simp [stepCount]

@[simp] theorem tickCount_cons_step : tickCount (⟨due, .step⟩ :: events) = tickCount events := by simp [tickCount]

@[simp] theorem tickCount_cons_tick : tickCount (⟨due, .tick⟩ :: events) = tickCount events + 1 := by simp [tickCount]

@[simp] theorem stepCount_append : stepCount (events ++ more) = stepCount events + stepCount more := List.countP_append

@[simp] theorem tickCount_append : tickCount (events ++ more) = tickCount events + tickCount more := List.countP_append

/-- Every event is a step or a tick. -/
theorem stepCount_add_tickCount : stepCount events + tickCount events = events.length := by
  induction events with
  | nil => rfl
  | cons e rest ih =>
    obtain ⟨due, event⟩ := e
    cases event with
    | step => rw [stepCount_cons_step, tickCount_cons_step, List.length_cons, ← ih]; omega
    | tick => rw [stepCount_cons_tick, tickCount_cons_tick, List.length_cons, ← ih]; omega

end

/-- After its first events a schedule is determined by how many of them are steps and ticks. -/
theorem take_after (cad : Cadence) (n : Nat) {k j : Nat} (h : Merged cad.stepRate cad.tickRate k j) :
    ((after cad k j).take n).2 =
        after cad (k + stepCount ((after cad k j).take n).1) (j + tickCount ((after cad k j).take n).1) ∧
      Merged cad.stepRate cad.tickRate (k + stepCount ((after cad k j).take n).1)
        (j + tickCount ((after cad k j).take n).1) := by
  induction n generalizing k j with
  | zero => exact ⟨rfl, h⟩
  | succ n ih =>
    unfold take
    cases hn : (after cad k j).next? with
    | none => exact ⟨rfl, h⟩
    | some p =>
      rcases of_next?_after hn with ⟨hle, he, hs⟩ | ⟨hlt, he, hs⟩
      · simp only [he, hs, stepCount_cons_tick, tickCount_cons_tick, ← Nat.add_assoc]
        simpa only [Nat.add_right_comm j 1] using ih (h.tick hle)
      · simp only [he, hs, stepCount_cons_step, tickCount_cons_step, ← Nat.add_assoc]
        simpa only [Nat.add_right_comm k 1] using ih (h.step hlt)

end Schedule

namespace Cadence

open Schedule

variable (cad : Cadence)

/-- The first events of a cadence, fewer if the schedule ends before. -/
def events (n : Nat) : List TimedEvent := ((start cad).take n).1

/-- The place of a step among the events, with the first step as number 0: how many events come before it. -/
def stepPlace (k : Nat) : Nat := k + k * cad.tickRate / cad.stepRate

/-- The place of a tick among the events, with the first tick as number 1. -/
def tickPlace (j : Nat) : Nat := j * cad.stepRate ⌈/⌉ cad.tickRate + (j - 1)

/-- That no time passes the limit in the first events: neither the time after any step nor that after any tick among them. -/
structure Fits (n : Nat) : Prop where
  step : ∀ k, cad.stepPlace k < n → (k + 1) * cad.tickRate < timeLimit
  tick : ∀ j, 1 ≤ j → cad.tickPlace j < n → (j + 1) * cad.stepRate < timeLimit

variable {cad : Cadence} {n i : Nat}

theorem take_events (h : i ≤ n) : (cad.events n).take i = cad.events i := take_take _ h

/-- How many of the first events are steps and ticks. -/
theorem merged_events (cad : Cadence) (n : Nat) :
    Merged cad.stepRate cad.tickRate (stepCount (cad.events n)) (tickCount (cad.events n)) := by
  have h := (take_after cad n (Merged.zero cad.tickRate_pos)).2
  rwa [Nat.zero_add, Nat.zero_add, ← start_eq_after] at h

/-- The first events come with the schedule after them. -/
theorem take_start (cad : Cadence) (n : Nat) : (start cad).take n = (cad.events n, ((start cad).take n).2) := rfl

/-- The schedule after the first events, by how many of them are steps and ticks. -/
theorem schedule_events (cad : Cadence) (n : Nat) :
    ((start cad).take n).2 = after cad (stepCount (cad.events n)) (tickCount (cad.events n)) := by
  have h := (take_after cad n (Merged.zero cad.tickRate_pos)).1
  rwa [Nat.zero_add, Nat.zero_add, ← start_eq_after] at h

/-- The event at a place is the one that comes next after the steps and the ticks before it. -/
theorem getElem?_events (h : i < n) :
    (cad.events n)[i]? =
      (after cad (stepCount (cad.events i)) (tickCount (cad.events i))).next?.map Prod.fst := by
  rw [← schedule_events, events, getElem?_take _ h]

theorem length_events_le (cad : Cadence) (n : Nat) : (cad.events n).length ≤ n := by
  rw [← take_events (Nat.le_refl n)]
  exact List.length_take_le _ _

/-- If there are events up to a place, the steps and ticks before it are as many as the place says. -/
theorem stepCount_add_tickCount_events (hlen : i ≤ (cad.events n).length) :
    stepCount (cad.events i) + tickCount (cad.events i) = i := by
  rw [stepCount_add_tickCount, ← take_events (hlen.trans (length_events_le cad n)), List.length_take]
  exact Nat.min_eq_left hlen

/-- Numbers of steps and ticks that belong to a place are the numbers of those before it, if there are events up to there. -/
theorem counts_events {k j : Nat} (h : Merged cad.stepRate cad.tickRate k j) (hlen : k + j ≤ (cad.events n).length) :
    stepCount (cad.events (k + j)) = k ∧ tickCount (cad.events (k + j)) = j :=
  (merged_events cad (k + j)).unique h (stepCount_add_tickCount_events hlen)

/-- The event at a place, by the numbers of steps and ticks that belong to the place. -/
theorem getElem?_events_of_merged {k j : Nat} (h : Merged cad.stepRate cad.tickRate k j)
    (hlen : k + j < (cad.events n).length) : (cad.events n)[k + j]? = (after cad k j).next?.map Prod.fst := by
  obtain ⟨hk, hj⟩ := counts_events h (Nat.le_of_lt hlen)
  rw [getElem?_events (hlen.trans_le (length_events_le cad n)), hk, hj]

/-- Every place has its numbers of steps and ticks. -/
theorem exists_merged (cad : Cadence) (i : Nat) : ∃ k j, k + j = i ∧ Merged cad.stepRate cad.tickRate k j := by
  induction i with
  | zero => exact ⟨0, 0, rfl, Merged.zero cad.tickRate_pos⟩
  | succ i ih =>
    obtain ⟨k, j, rfl, h⟩ := ih
    rcases Nat.lt_or_ge (k * cad.tickRate) ((j + 1) * cad.stepRate) with hlt | hle
    · exact ⟨k + 1, j, Nat.add_right_comm k 1 j, h.step hlt⟩
    · exact ⟨k, j + 1, rfl, h.tick hle⟩

/-- Numbers of steps and ticks belong to the place of the step or of the tick that comes next. -/
theorem place_of_merged {k j : Nat} (h : Merged cad.stepRate cad.tickRate k j) :
    (k * cad.tickRate < (j + 1) * cad.stepRate ∧ k + j = cad.stepPlace k) ∨
      ((j + 1) * cad.stepRate ≤ k * cad.tickRate ∧ k + j = cad.tickPlace (j + 1)) := by
  rcases Nat.lt_or_ge (k * cad.tickRate) ((j + 1) * cad.stepRate) with hlt | hle
  · refine Or.inl ⟨hlt, ?_⟩
    rw [stepPlace, ← h.ticks_eq_div hlt]
  · refine Or.inr ⟨hle, ?_⟩
    rw [tickPlace, Nat.add_sub_cancel, ← h.steps_eq_ceilDiv cad.tickRate_pos hle]

/-- Every place is the place of a step or of a tick. -/
theorem eq_stepPlace_or_tickPlace (cad : Cadence) (i : Nat) :
    (∃ k, i = cad.stepPlace k) ∨ ∃ j, 1 ≤ j ∧ i = cad.tickPlace j := by
  obtain ⟨k, j, rfl, h⟩ := exists_merged cad i
  rcases place_of_merged h with ⟨-, hk⟩ | ⟨-, hj⟩
  · exact Or.inl ⟨k, hk⟩
  · exact Or.inr ⟨j + 1, Nat.le_add_left 1 j, hj⟩

/-- The event at the place of a step, and what comes before it. -/
theorem step_at_stepPlace {k : Nat} (h : cad.stepPlace k < (cad.events n).length) :
    (cad.events n)[cad.stepPlace k]? = some ⟨stepDue cad k % timeLimit, .step⟩ ∧
      stepCount (cad.events (cad.stepPlace k)) = k ∧
      tickCount (cad.events (cad.stepPlace k)) = k * cad.tickRate / cad.stepRate ∧
      (k + 1) * cad.tickRate < timeLimit := by
  obtain ⟨hm, hlt⟩ := merged_step_place (t := cad.tickRate) cad.stepRate_pos k
  obtain ⟨hk, hj⟩ := counts_events hm (Nat.le_of_lt h)
  have hget := getElem?_events_of_merged hm h
  rw [next?_after, if_neg (Nat.not_le.mpr hlt)] at hget
  by_cases hfits : (k + 1) * cad.tickRate < timeLimit
  · rw [if_pos hfits] at hget
    exact ⟨hget, hk, hj, hfits⟩
  · rw [if_neg hfits] at hget
    exact absurd h (Nat.not_lt.mpr (List.getElem?_eq_none_iff.mp hget))

/-- The event at the place of a tick, and what comes before it. -/
theorem tick_at_tickPlace {j : Nat} (hj : 1 ≤ j) (h : cad.tickPlace j < (cad.events n).length) :
    (cad.events n)[cad.tickPlace j]? = some ⟨tickDue cad j % timeLimit, .tick⟩ ∧
      stepCount (cad.events (cad.tickPlace j)) = j * cad.stepRate ⌈/⌉ cad.tickRate ∧
      tickCount (cad.events (cad.tickPlace j)) = j - 1 ∧
      (j + 1) * cad.stepRate < timeLimit := by
  obtain ⟨j, rfl⟩ : ∃ m, j = m + 1 := ⟨j - 1, by omega⟩
  obtain ⟨hm, hle⟩ := merged_tick_place cad.stepRate_pos cad.tickRate_pos j
  obtain ⟨hk, hj⟩ := counts_events hm (Nat.le_of_lt h)
  have hget := getElem?_events_of_merged hm h
  rw [next?_after, if_pos hle] at hget
  by_cases hfits : (j + 2) * cad.stepRate < timeLimit
  · rw [if_pos hfits] at hget
    exact ⟨hget, hk, hj, hfits⟩
  · rw [if_neg hfits] at hget
    exact absurd h (Nat.not_lt.mpr (List.getElem?_eq_none_iff.mp hget))

theorem Fits.mono (h : cad.Fits n) (hi : i ≤ n) : cad.Fits i :=
  ⟨fun k hk => h.step k (hk.trans_le hi), fun j hj hk => h.tick j hj (hk.trans_le hi)⟩

/-- Few enough events fit. -/
theorem fits_of_lt (hsteps : (n + 1) * cad.stepRate < timeLimit) (hticks : (n + 1) * cad.tickRate < timeLimit) : cad.Fits n := by
  constructor
  · intro k hk
    have hk : k < n := (Nat.le_add_right k _).trans_lt hk
    exact (Nat.mul_le_mul_right _ (by omega)).trans_lt hticks
  · intro j _ hj
    have hj : j - 1 < n := (Nat.le_add_left (j - 1) _).trans_lt hj
    exact (Nat.mul_le_mul_right _ (by omega)).trans_lt hsteps

/-- A schedule gives a number of events exactly when no time among them passes the limit. -/
theorem length_events_eq_iff : (cad.events n).length = n ↔ cad.Fits n := by
  constructor
  · intro h
    exact ⟨fun k hk => (step_at_stepPlace (h.symm ▸ hk)).2.2.2, fun j hj hk => (tick_at_tickPlace hj (h.symm ▸ hk)).2.2.2⟩
  · intro h
    refine Nat.le_antisymm (length_events_le cad n) (Nat.not_lt.mp fun hlt => ?_)
    -- the place where the schedule ended
    have hall : cad.events (cad.events n).length = cad.events n := by
      rw [← take_events (length_events_le cad n), List.take_length]
    have hget : (cad.events n)[(cad.events n).length]? = _ := getElem?_events hlt
    have hsum := stepCount_add_tickCount (cad.events n)
    have hm := merged_events cad n
    rw [hall, List.getElem?_length, next?_after] at hget
    rcases place_of_merged hm with ⟨hstep, hplace⟩ | ⟨htick, hplace⟩
    · rw [if_neg (Nat.not_le.mpr hstep), if_pos (h.step _ (by omega))] at hget
      cases hget
    · rw [if_pos htick, if_pos (h.tick _ (Nat.le_add_left 1 _) (by omega))] at hget
      cases hget

/-! ## The first tick from a place on -/

/-- The place of the first tick at or behind a place. -/
def tickFrom (cad : Cadence) (i : Nat) : Nat := cad.tickPlace (i * cad.tickRate / (cad.stepRate + cad.tickRate) + 1)

/-- A later tick has a later place. -/
theorem tickPlace_mono (cad : Cadence) {j j' : Nat} (h : j ≤ j') : cad.tickPlace j ≤ cad.tickPlace j' := by
  have hsteps : j * cad.stepRate ≤ j' * cad.stepRate := Nat.mul_le_mul_right _ h
  rw [tickPlace, tickPlace, Nat.ceilDiv_eq_add_pred_div, Nat.ceilDiv_eq_add_pred_div]
  have hquotient : (j * cad.stepRate + cad.tickRate - 1) / cad.tickRate ≤ (j' * cad.stepRate + cad.tickRate - 1) / cad.tickRate :=
    Nat.div_le_div_right (by omega)
  omega

theorem le_tickFrom (cad : Cadence) (i : Nat) : i ≤ cad.tickFrom i := by
  obtain ⟨k, j, rfl, hm⟩ := exists_merged cad i
  rw [tickFrom, ← hm.ticks_eq]
  rcases place_of_merged hm with ⟨hlt, -⟩ | ⟨-, hplace⟩
  · obtain ⟨-, hle⟩ := merged_tick_place cad.stepRate_pos cad.tickRate_pos j
    have hk : k < (j + 1) * cad.stepRate ⌈/⌉ cad.tickRate := Nat.lt_of_mul_lt_mul_right (hlt.trans_le hle)
    rw [tickPlace, Nat.add_sub_cancel]
    omega
  · exact hplace.le

/-- No tick comes between a place and the first tick from there on. -/
theorem tickFrom_le {j : Nat} (hj : 1 ≤ j) (h : i ≤ cad.tickPlace j) : cad.tickFrom i ≤ cad.tickPlace j := by
  obtain ⟨j, rfl⟩ : ∃ m, j = m + 1 := ⟨j - 1, by omega⟩
  obtain ⟨hm, -⟩ := merged_tick_place cad.stepRate_pos cad.tickRate_pos j
  refine tickPlace_mono cad (Nat.succ_le_succ ?_)
  rw [hm.ticks_eq]
  exact Nat.div_le_div_right (Nat.mul_le_mul_right _ h)

/-- The first tick from a place on, and what comes before it: it is a tick, and all between the place and it are steps. -/
theorem events_tickFrom (hfit : cad.Fits (cad.tickFrom i + 1)) :
    (cad.events (cad.tickFrom i + 1))[cad.tickFrom i]?.map (·.event) = some .tick ∧
      ∀ n, i ≤ n → n < cad.tickFrom i → (cad.events (cad.tickFrom i + 1))[n]?.map (·.event) = some .step := by
  have hlen := length_events_eq_iff.mpr hfit
  constructor
  · obtain ⟨hget, -⟩ := tick_at_tickPlace (Nat.le_add_left 1 _) (hlen.symm ▸ Nat.lt_add_one (cad.tickFrom i))
    exact congrArg (Option.map (·.event)) hget
  · intro n hle hlt
    rcases eq_stepPlace_or_tickPlace cad n with ⟨k, rfl⟩ | ⟨j, hj, rfl⟩
    · obtain ⟨hget, -⟩ := step_at_stepPlace (hlen.symm ▸ Nat.lt_add_one_of_lt hlt)
      exact congrArg (Option.map (·.event)) hget
    · exact absurd (tickFrom_le hj hle) (Nat.not_le.mpr hlt)

/-- Up to the first tick of a cadence there is one tick, and there are as many steps as fit into its period, rounded up. -/
theorem counts_to_first_tick (hfit : cad.Fits (cad.tickFrom 0 + 1)) (hi : i ≤ cad.tickFrom 0 + 1) :
    stepCount (cad.events i) ≤ cad.stepRate ⌈/⌉ cad.tickRate ∧ tickCount (cad.events i) ≤ 1 := by
  have hplace : cad.tickFrom 0 = cad.tickPlace 1 := by rw [tickFrom, Nat.zero_mul, Nat.zero_div]
  rw [hplace] at hfit hi
  have hlen := length_events_eq_iff.mpr hfit
  obtain ⟨hget, hsteps, hticks, -⟩ := tick_at_tickPlace (Nat.le_refl 1) (hlen.symm ▸ Nat.lt_add_one (cad.tickPlace 1))
  have hall : cad.events (cad.tickPlace 1 + 1) = cad.events (cad.tickPlace 1) ++ [⟨tickDue cad 1 % timeLimit, .tick⟩] := by
    have hsplit := List.take_add_one (l := cad.events (cad.tickPlace 1 + 1)) (i := cad.tickPlace 1)
    rw [take_events (Nat.le_refl _), take_events (Nat.le_succ _), hget] at hsplit
    exact hsplit
  have hsub : (cad.events i).Sublist (cad.events (cad.tickPlace 1 + 1)) := take_events hi ▸ List.take_sublist i _
  have hstepsLe : stepCount (cad.events i) ≤ stepCount (cad.events (cad.tickPlace 1 + 1)) := hsub.countP_le
  have hticksLe : tickCount (cad.events i) ≤ tickCount (cad.events (cad.tickPlace 1 + 1)) := hsub.countP_le
  rw [hall, stepCount_append, hsteps, Nat.one_mul, stepCount_cons_tick] at hstepsLe
  rw [hall, tickCount_append, hticks, tickCount_cons_tick] at hticksLe
  exact ⟨hstepsLe, hticksLe⟩

end Cadence

end ChipEight
