import ChipEight.Proofs.Lemmas.Schedule
import Mathlib.Data.Nat.ModEq

/-!
# The schedule is the merge of its two clocks

The place and the time of every step and every tick in closed form, as long as no time passes its bits: the schedule is the merge
of the two clocks in the order of time, ticks first, with nothing left out and nothing twice. It repeats with the period of the two
clocks.
-/

namespace ChipEight

open Schedule

namespace Schedule

variable (cad : Cadence)

/-- When the event after some steps and ticks is due, in nanoseconds. -/
def nextDue (k j : Nat) : Nat :=
  min (k * cad.tickRate) ((j + 1) * cad.stepRate) * 1000000000 / (cad.tickRate * cad.stepRate)

/-- A step that comes next is due when the next event is. -/
theorem nextDue_of_step {k j : Nat} (h : k * cad.tickRate < (j + 1) * cad.stepRate) : nextDue cad k j = stepDue cad k := by
  rw [nextDue, Nat.min_eq_left (Nat.le_of_lt h), stepDue, Nat.mul_right_comm, Nat.mul_comm (k * 1000000000),
    Nat.mul_div_mul_left _ _ cad.tickRate_pos]

/-- A tick that comes next is due when the next event is. -/
theorem nextDue_of_tick {k j : Nat} (h : (j + 1) * cad.stepRate ≤ k * cad.tickRate) :
    nextDue cad k j = tickDue cad (j + 1) := by
  rw [nextDue, Nat.min_eq_right h, tickDue, Nat.mul_right_comm, Nat.mul_div_mul_right _ _ cad.stepRate_pos]

/-- More steps and ticks do not make the next event due earlier. -/
theorem nextDue_mono {k k' j j' : Nat} (hk : k ≤ k') (hj : j ≤ j') : nextDue cad k j ≤ nextDue cad k' j' := by
  have hsteps : k * cad.tickRate ≤ k' * cad.tickRate := Nat.mul_le_mul_right _ hk
  have hticks : (j + 1) * cad.stepRate ≤ (j' + 1) * cad.stepRate := Nat.mul_le_mul_right _ (Nat.succ_le_succ hj)
  exact Nat.div_le_div_right (Nat.mul_le_mul_right _ (by omega))

end Schedule

namespace Cadence

/-- That every one of the first events is due at a time that fits. -/
structure DuesFit (cad : Cadence) (n : Nat) : Prop where
  step : ∀ k, cad.stepPlace k < n → stepDue cad k < timeLimit
  tick : ∀ j, 1 ≤ j → cad.tickPlace j < n → tickDue cad j < timeLimit

variable {cad : Cadence} {n i : Nat}

/-- When an event is due, by the numbers of steps and ticks before it. -/
theorem DuesFit.due_eq (hdue : cad.DuesFit n) {e : TimedEvent} (h : (cad.events n)[i]? = some e) :
    e.due = nextDue cad (stepCount (cad.events i)) (tickCount (cad.events i)) := by
  obtain ⟨hi, -⟩ := List.getElem?_eq_some_iff.mp h
  have hin : i < n := hi.trans_le (length_events_le cad n)
  have hsum := stepCount_add_tickCount_events (Nat.le_of_lt hi)
  rw [getElem?_events hin, Option.map_eq_some_iff] at h
  obtain ⟨⟨_, s⟩, hnext, rfl⟩ := h
  rcases place_of_merged (merged_events cad i) with ⟨hlt, hplace⟩ | ⟨hle, hplace⟩
  · rw [nextDue_of_step cad hlt]
    have hfits := hdue.step _ (by rw [← hplace, hsum]; exact hin)
    rcases of_next?_after hnext with ⟨hle, -, -⟩ | ⟨-, he, -⟩
    · omega
    · rw [he]
      exact Nat.mod_eq_of_lt hfits
  · rw [nextDue_of_tick cad hle]
    have hfits := hdue.tick _ (Nat.le_add_left 1 _) (by rw [← hplace, hsum]; exact hin)
    rcases of_next?_after hnext with ⟨-, he, -⟩ | ⟨hlt, -, -⟩
    · rw [he]
      exact Nat.mod_eq_of_lt hfits
    · omega

/-- The times of events do not decrease. -/
theorem DuesFit.pairwise_due (hdue : cad.DuesFit n) : (cad.events n).Pairwise fun a b => a.due ≤ b.due := by
  rw [List.pairwise_iff_getElem]
  intro i i' hi hi' hlt
  have hfront : (cad.events i').take i = cad.events i := take_events (Nat.le_of_lt hlt)
  have hsub : (cad.events i).Sublist (cad.events i') := hfront ▸ List.take_sublist i _
  rw [hdue.due_eq (List.getElem?_eq_getElem hi), hdue.due_eq (List.getElem?_eq_getElem hi')]
  exact nextDue_mono cad hsub.countP_le hsub.countP_le

/-- After how many events the two clocks stand to each other as before. -/
def period (cad : Cadence) : Nat := (cad.stepRate + cad.tickRate) / cad.stepRate.gcd cad.tickRate

/-- The steps and the ticks of a period are the events of a period. -/
theorem add_period_eq (cad : Cadence) (k j : Nat) :
    k + cad.stepRate / cad.stepRate.gcd cad.tickRate + (j + cad.tickRate / cad.stepRate.gcd cad.tickRate) =
      k + j + cad.period := by
  rw [period, Nat.add_div_of_dvd_right (Nat.gcd_dvd_left _ _)]
  omega

/-- A period later there are as many steps and ticks more. -/
theorem counts_add_period (hlen : i + cad.period ≤ (cad.events n).length) :
    stepCount (cad.events (i + cad.period)) = stepCount (cad.events i) + cad.stepRate / cad.stepRate.gcd cad.tickRate ∧
      tickCount (cad.events (i + cad.period)) = tickCount (cad.events i) + cad.tickRate / cad.stepRate.gcd cad.tickRate := by
  have hsum := add_period_eq cad (stepCount (cad.events i)) (tickCount (cad.events i))
  rw [stepCount_add_tickCount_events ((Nat.le_add_right _ _).trans hlen)] at hsum
  have h := counts_events (merged_events cad i).add_period (hsum ▸ hlen)
  rwa [hsum] at h

/-- Which event is at a place, by the numbers of steps and ticks that belong to the place. -/
theorem event_of_merged {k j : Nat} (h : Merged cad.stepRate cad.tickRate k j) (hlen : k + j < (cad.events n).length) :
    (cad.events n)[k + j]?.map (·.event) =
      some (if (j + 1) * cad.stepRate ≤ k * cad.tickRate then .tick else .step) := by
  have hget := getElem?_events_of_merged h hlen
  rw [List.getElem?_eq_getElem hlen, eq_comm, Option.map_eq_some_iff] at hget
  obtain ⟨⟨_, s⟩, hnext, he⟩ := hget
  rw [List.getElem?_eq_getElem hlen, ← he]
  rcases of_next?_after hnext with ⟨hle, hevent, -⟩ | ⟨hlt, hevent, -⟩
  · rw [if_pos hle, hevent]
    rfl
  · rw [if_neg (Nat.not_le.mpr hlt), hevent]
    rfl

/-- A period later there is the same event. -/
theorem event_add_period (hlen : i + cad.period < (cad.events n).length) :
    (cad.events n)[i + cad.period]?.map (·.event) = (cad.events n)[i]?.map (·.event) := by
  obtain ⟨k, j, rfl, hm⟩ := exists_merged cad i
  have hsum := add_period_eq cad k j
  have hlater := event_of_merged hm.add_period (hsum ▸ hlen)
  rw [hsum] at hlater
  rw [hlater, event_of_merged hm ((Nat.le_add_right _ _).trans_lt hlen)]
  have hperiod := period_eq cad.stepRate cad.tickRate
  -- both clocks have moved on by the same time
  have hiff : (j + cad.tickRate / cad.stepRate.gcd cad.tickRate + 1) * cad.stepRate ≤
        (k + cad.stepRate / cad.stepRate.gcd cad.tickRate) * cad.tickRate ↔
      (j + 1) * cad.stepRate ≤ k * cad.tickRate := by
    rw [Nat.add_right_comm, Nat.add_mul (j + 1), Nat.add_mul k]
    omega
  simp only [hiff]

/-- In every window of the length of a period there are the steps and the ticks of one period. -/
theorem counts_window (hlen : i + cad.period ≤ (cad.events n).length) :
    stepCount (((cad.events n).drop i).take cad.period) = cad.stepRate / cad.stepRate.gcd cad.tickRate ∧
      tickCount (((cad.events n).drop i).take cad.period) = cad.tickRate / cad.stepRate.gcd cad.tickRate := by
  obtain ⟨hsteps, hticks⟩ := counts_add_period hlen
  have hin := hlen.trans (length_events_le cad n)
  have hsplit : cad.events (i + cad.period) = cad.events i ++ ((cad.events n).drop i).take cad.period := by
    rw [← take_events hin, List.take_add, take_events ((Nat.le_add_right _ _).trans hin)]
  rw [hsplit, stepCount_append] at hsteps
  rw [hsplit, tickCount_append] at hticks
  exact ⟨Nat.add_left_cancel hsteps, Nat.add_left_cancel hticks⟩

/-- As long as no time passes the limit, the events of a cadence are the steps and the ticks of its two clocks: the `k`-th step,
counted from 0, with `k * t / c` ticks before it, and the `j`-th tick, counted from 1, with `j * c / t` steps before it, rounded up,
each at its place and due at its time; and there is no place for anything else. The times do not decrease. The events repeat with
the period of the clocks, and any so many events in a row are as many steps and ticks as the clocks have in a period. -/
theorem events_eq_merge (cad : Cadence) {n : Nat} (hfit : cad.Fits n) (hdue : cad.DuesFit n) :
    (cad.events n).length = n ∧
    (∀ k, cad.stepPlace k < n →
      (cad.events n)[cad.stepPlace k]? = some ⟨k * 1000000000 / cad.stepRate, .step⟩ ∧
      stepCount ((cad.events n).take (cad.stepPlace k)) = k ∧
      tickCount ((cad.events n).take (cad.stepPlace k)) = k * cad.tickRate / cad.stepRate) ∧
    (∀ j, 1 ≤ j → cad.tickPlace j < n →
      (cad.events n)[cad.tickPlace j]? = some ⟨j * 1000000000 / cad.tickRate, .tick⟩ ∧
      stepCount ((cad.events n).take (cad.tickPlace j)) = j * cad.stepRate ⌈/⌉ cad.tickRate ∧
      tickCount ((cad.events n).take (cad.tickPlace j)) = j - 1) ∧
    (∀ i, (∃ k, i = cad.stepPlace k) ∨ ∃ j, 1 ≤ j ∧ i = cad.tickPlace j) ∧
    (cad.events n).Pairwise (fun a b => a.due ≤ b.due) ∧
    (∀ i, i + cad.period < n → (cad.events n)[i + cad.period]?.map (·.event) = (cad.events n)[i]?.map (·.event)) ∧
    (∀ i, i + cad.period ≤ n →
      stepCount (((cad.events n).drop i).take cad.period) = cad.stepRate / cad.stepRate.gcd cad.tickRate ∧
      tickCount (((cad.events n).drop i).take cad.period) = cad.tickRate / cad.stepRate.gcd cad.tickRate) := by
  have hlen : (cad.events n).length = n := length_events_eq_iff.mpr hfit
  refine ⟨hlen, fun k hk => ?_, fun j hj hk => ?_, eq_stepPlace_or_tickPlace cad, hdue.pairwise_due,
    fun i hi => event_add_period (hlen.symm ▸ hi), fun i hi => counts_window (hlen.symm ▸ hi)⟩
  · obtain ⟨hget, hsteps, hticks, -⟩ := step_at_stepPlace (hlen.symm ▸ hk)
    rw [Nat.mod_eq_of_lt (hdue.step k hk)] at hget
    rw [take_events (Nat.le_of_lt hk)]
    exact ⟨hget, hsteps, hticks⟩
  · obtain ⟨hget, hsteps, hticks, -⟩ := tick_at_tickPlace hj (hlen.symm ▸ hk)
    rw [Nat.mod_eq_of_lt (hdue.tick j hj hk)] at hget
    rw [take_events (Nat.le_of_lt hk)]
    exact ⟨hget, hsteps, hticks⟩

/-- Seven hundred steps and sixty ticks a second: in the first second the times fit, and from the 19th event on as anywhere 38
events are 35 steps and 3 ticks. -/
theorem events_eq_merge_uneven :
    Cadence.Fits ⟨700, 60⟩ 760 ∧ Cadence.DuesFit ⟨700, 60⟩ 760 ∧
      stepCount (((Cadence.events ⟨700, 60⟩ 760).drop 19).take 38) = 35 ∧
      tickCount (((Cadence.events ⟨700, 60⟩ 760).drop 19).take 38) = 3 := by
  have hstepRate : Cadence.stepRate ⟨700, 60⟩ = 700 := by decide
  have htickRate : Cadence.tickRate ⟨700, 60⟩ = 60 := by decide
  have hlimit : timeLimit = 0x10000000000000000 := rfl
  have hfit : Cadence.Fits ⟨700, 60⟩ 760 := by
    constructor
    · intro k hk
      have hk : k < 760 := (Nat.le_add_right k _).trans_lt hk
      rw [htickRate]
      omega
    · intro j _ hj
      have hj : j - 1 < 760 := (Nat.le_add_left (j - 1) _).trans_lt hj
      rw [hstepRate]
      omega
  have hdue : Cadence.DuesFit ⟨700, 60⟩ 760 := by
    constructor
    · intro k hk
      have hk : k < 760 := (Nat.le_add_right k _).trans_lt hk
      rw [stepDue, hstepRate]
      omega
    · intro j _ hj
      have hj : j - 1 < 760 := (Nat.le_add_left (j - 1) _).trans_lt hj
      rw [tickDue, htickRate]
      omega
  obtain ⟨-, -, -, -, -, -, hwindow⟩ := events_eq_merge ⟨700, 60⟩ hfit hdue
  exact ⟨hfit, hdue, hwindow 19 (by decide)⟩

end Cadence

end ChipEight
