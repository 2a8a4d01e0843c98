import ChipEight.Proofs.Guarded.Schedule
import ChipEight.Proofs.Merge

/-!
# How far every schedule reaches

Whatever the rates are, the first `2 ^ 33 + 1` events of a schedule come without a trap: the times that they move on fit 64 bits, and
so do the nanoseconds after which they are due. Of two clocks that share so many events one has had at most half of them, and the
merge keeps the time of the other within a period of its time (`Schedule.Merged.times_le`). At the greatest rates both times are then
the greatest number of 64 bits, and the event after them traps.
-/

namespace ChipEight

open Schedule

/-! ## Times and dues that fit -/

/-- If two clocks whose periods are at most `m` have had at most `2 * m + 3` events, neither the next step nor the next tick is due
after `m + 2` periods of length `m`. -/
theorem Schedule.Merged.times_le {c t k j m : Nat} (h : Merged c t k j) (hc : c ≤ m) (ht : t ≤ m) (hkj : k + j ≤ 2 * m + 3) :
    k * t ≤ (m + 2) * m ∧ (j + 1) * c ≤ (m + 2) * m := by
  have hle := h.tick_le
  have hlt := h.step_lt
  have hj : (j + 1) * c = j * c + c := Nat.succ_mul j c
  have hm : (m + 2) * m = (m + 1) * m + m := Nat.succ_mul (m + 1) m
  constructor
  · rcases Nat.lt_or_ge (m + 2) k with hk | hk
    · -- there are at most `m` ticks, and the last step is due before the next of them
      have hticks : (j + 1) * c ≤ (m + 1) * m := Nat.mul_le_mul (by omega) hc
      omega
    · exact Nat.mul_le_mul hk ht
  · rcases Nat.lt_or_ge (m + 1) j with hjm | hjm
    · -- there are at most `m + 1` steps, and the last tick is not due after the next of them
      have hsteps : k * t ≤ (m + 1) * m := Nat.mul_le_mul (by omega) ht
      omega
    · exact Nat.mul_le_mul (Nat.succ_le_succ hjm) hc

/-- Two clocks of the same rate take turns, and the first event is a step. -/
theorem Schedule.Merged.even (c k : Nat) (hc : 0 < c) : Merged c c (k + 1) k := by
  have hk : (k + 1) * c = k * c + c := Nat.succ_mul k c
  exact ⟨by omega, by omega⟩

namespace Cadence

variable {cad : Cadence} {n k j : Nat}

/-- The greatest rate. -/
def maxRate : Nat := 0xffffffff

/-- The number of events that every schedule has. -/
def horizon : Nat := 2 ^ 33 + 1

/-- The horizon in terms of the greatest rate. -/
theorem horizon_eq : horizon = 2 * maxRate + 3 := by decide

theorem stepRate_le (cad : Cadence) : cad.stepRate ≤ maxRate := by
  have := cad.cpuHz.toNat_lt
  unfold stepRate maxRate
  omega

theorem tickRate_le (cad : Cadence) : cad.tickRate ≤ maxRate := by
  have := cad.timerHz.toNat_lt
  unfold tickRate maxRate
  omega

/-- Up to the horizon no time passes its bits. -/
theorem fits_horizon (cad : Cadence) : cad.Fits horizon := by
  have hlimit : (maxRate + 2) * maxRate < timeLimit := by decide
  rw [horizon_eq]
  constructor
  · intro k hk
    obtain ⟨hm, hlt⟩ := merged_step_place (t := cad.tickRate) cad.stepRate_pos k
    have hplace : k + 1 + k * cad.tickRate / cad.stepRate ≤ 2 * maxRate + 3 := by
      rw [Nat.add_right_comm]
      exact hk
    exact ((hm.step hlt).times_le cad.stepRate_le cad.tickRate_le hplace).1.trans_lt hlimit
  · intro j hj hk
    obtain ⟨j, rfl⟩ : ∃ i, j = i + 1 := ⟨j - 1, by omega⟩
    obtain ⟨hm, hle⟩ := merged_tick_place cad.stepRate_pos cad.tickRate_pos j
    exact ((hm.tick hle).times_le cad.stepRate_le cad.tickRate_le hk).2.trans_lt hlimit

/-- No due time passes its bits among so few events that one event a second would not. -/
theorem duesFit_of_lt (h : n * 1000000000 < timeLimit) : cad.DuesFit n := by
  constructor
  · intro k hk
    have hk : k ≤ n := ((Nat.le_add_right k _).trans_lt hk).le
    exact (Nat.div_le_self _ _).trans_lt ((Nat.mul_le_mul_right _ hk).trans_lt h)
  · intro j _ hj
    have hj : j - 1 < n := (Nat.le_add_left (j - 1) _).trans_lt hj
    exact (Nat.div_le_self _ _).trans_lt ((Nat.mul_le_mul_right _ (by omega)).trans_lt h)

/-! ## Runs without a trap -/

/-- The time of an event fits if the time after it does. -/
theorem Fits.time_lt (hfit : cad.Fits n) (hm : Merged cad.stepRate cad.tickRate k j) (hkj : k + j < n) :
    min (k * cad.tickRate) ((j + 1) * cad.stepRate) < timeLimit := by
  rcases place_of_merged hm with ⟨-, hplace⟩ | ⟨-, hplace⟩
  · have hlater : k * cad.tickRate ≤ (k + 1) * cad.tickRate := Nat.mul_le_mul_right _ (Nat.le_succ k)
    exact (Nat.min_le_left _ _).trans_lt (hlater.trans_lt (hfit.step k (hplace ▸ hkj)))
  · have hlater : (j + 1) * cad.stepRate ≤ (j + 1 + 1) * cad.stepRate := Nat.mul_le_mul_right _ (Nat.le_succ _)
    exact (Nat.min_le_right _ _).trans_lt (hlater.trans_lt (hfit.tick (j + 1) (Nat.le_add_left 1 j) (hplace ▸ hkj)))

/-- The next event is due at a time that fits. -/
theorem DuesFit.nextDue_lt (hdue : cad.DuesFit n) (hm : Merged cad.stepRate cad.tickRate k j) (hkj : k + j < n) :
    nextDue cad k j < timeLimit := by
  rcases place_of_merged hm with ⟨hlt, hplace⟩ | ⟨hle, hplace⟩
  · rw [nextDue_of_step cad hlt]
    exact hdue.step k (hplace ▸ hkj)
  · rw [nextDue_of_tick cad hle]
    exact hdue.tick (j + 1) (Nat.le_add_left 1 j) (hplace ▸ hkj)

/-- As long as the times and the dues fit, it can be told when the next event is due. -/
theorem telling_after (hfit : cad.Fits n) (hdue : cad.DuesFit n) (hm : Merged cad.stepRate cad.tickRate k j) (hkj : k + j < n) :
    Guarded.Telling (after cad k j) (min (after cad k j).nextStep (after cad k j).nextTick) := by
  have hunits : cad.tickRate * cad.stepRate ≤ maxRate * maxRate := Nat.mul_le_mul cad.tickRate_le cad.stepRate_le
  constructor
  · exact (Nat.mul_lt_mul_of_pos_right (hfit.time_lt hm hkj) (by decide)).trans (by decide)
  · exact hunits.trans_lt (by decide)
  · exact hdue.nextDue_lt hm hkj

/-- As long as the times and the dues fit, there is a next event, and it does not trap. -/
theorem nextEvent_after (hfit : cad.Fits n) (hdue : cad.DuesFit n) (hm : Merged cad.stepRate cad.tickRate k j)
    (hkj : k + j < n) : ∃ e k' j', Guarded.nextEvent (after cad k j) = .ok (e, after cad k' j') ∧
      (after cad k j).next? = some (e, after cad k' j') ∧ k' + j' = k + j + 1 ∧ Merged cad.stepRate cad.tickRate k' j' := by
  have htelling := telling_after hfit hdue hm hkj
  rcases place_of_merged hm with ⟨hlt, hplace⟩ | ⟨hle, hplace⟩
  · have hnext := next?_after cad k j
    rw [if_neg (Nat.not_le.mpr hlt), if_pos (hfit.step k (hplace ▸ hkj))] at hnext
    exact ⟨_, k + 1, j, Guarded.nextEvent_eq hnext htelling, hnext, Nat.add_right_comm k 1 j, hm.step hlt⟩
  · have hnext := next?_after cad k j
    rw [if_pos hle, if_pos (hfit.tick (j + 1) (Nat.le_add_left 1 j) (hplace ▸ hkj))] at hnext
    exact ⟨_, k, j + 1, Guarded.nextEvent_eq hnext htelling, hnext, rfl, hm.tick hle⟩

/-- As long as the times and the dues fit, no event traps from some steps and ticks on. -/
theorem takeEvents_after (hfit : cad.Fits n) (hdue : cad.DuesFit n) (i : Nat) (hm : Merged cad.stepRate cad.tickRate k j)
    (hkj : k + j + i ≤ n) : Guarded.takeEvents (after cad k j) i = .ok ((after cad k j).take i) := by
  induction i generalizing k j with
  | zero => rfl
  | succ i ih =>
    obtain ⟨e, k', j', hguarded, hnext, hsum, hm'⟩ := nextEvent_after hfit hdue hm (by omega)
    rw [Guarded.takeEvents, hguarded, Guarded.ok_bind, ih hm' (by omega), Guarded.ok_bind, take, hnext]
    rfl

/-- As long as the times and the dues fit, the first events do not trap. -/
theorem takeEvents_start (hfit : cad.Fits n) (hdue : cad.DuesFit n) :
    Guarded.takeEvents (start cad) n = .ok ((start cad).take n) := by
  rw [start_eq_after]
  exact takeEvents_after hfit hdue n (Merged.zero cad.tickRate_pos) (by omega)

/-! ## The horizon -/

theorem duesFit_horizon (cad : Cadence) : cad.DuesFit horizon := duesFit_of_lt (by decide)

/-- The greatest rates that there are. -/
def fastest : Cadence := ⟨0xffffffff, 0xffffffff⟩

/-- At the greatest rates there is one step more than ticks before the horizon. -/
theorem schedule_fastest : ((start fastest).take horizon).2 = after fastest (maxRate + 2) (maxRate + 1) := by
  have hlen : (fastest.events horizon).length = horizon := length_events_eq_iff.mpr fastest.fits_horizon
  have hm : Merged fastest.stepRate fastest.tickRate (maxRate + 2) (maxRate + 1) := Merged.even maxRate (maxRate + 1) (by decide)
  have hsum : maxRate + 2 + (maxRate + 1) = horizon := by decide
  obtain ⟨hk, hj⟩ := counts_events hm (by rw [hlen, hsum])
  rw [hsum] at hk hj
  rw [schedule_events, hk, hj]

/-- At the greatest rates the schedule ends at the horizon. -/
theorem next?_fastest : (after fastest (maxRate + 2) (maxRate + 1)).next? = none := by
  rw [next?_after, if_pos (by decide), if_neg (by decide)]

/-- The first `2 ^ 33 + 1` events of every cadence come without a trap: no sum of the two times passes 64 bits, no product passes
128, no divisor is zero, and no due time passes 64 bits. So there are that many events, and they are due in their order. At the
greatest rates both times are then the greatest number of 64 bits, and the next event is a tick that traps, because the time of the
tick after it does not fit. -/
theorem arithmetic_fits_to_horizon :
    (∀ cad : Cadence,
      Guarded.takeEvents (start cad) horizon = .ok ((start cad).take horizon) ∧
      (cad.events horizon).length = horizon ∧
      (cad.events horizon).Pairwise fun a b => a.due ≤ b.due) ∧
    ∃ s, Guarded.takeEvents (start fastest) horizon = .ok (fastest.events horizon, s) ∧
      s.nextStep = timeLimit - 1 ∧ s.nextTick = timeLimit - 1 ∧ timeLimit ≤ s.nextTick + s.tickPeriod ∧
      Guarded.nextEvent s = .error .overflow := by
  constructor
  · intro cad
    exact ⟨takeEvents_start cad.fits_horizon cad.duesFit_horizon, length_events_eq_iff.mpr cad.fits_horizon,
      cad.duesFit_horizon.pairwise_due⟩
  · refine ⟨after fastest (maxRate + 2) (maxRate + 1), ?_, by decide, by decide, by decide,
      Guarded.nextEvent_eq_error next?_fastest⟩
    rw [takeEvents_start fastest.fits_horizon fastest.duesFit_horizon, take_start, schedule_fastest]

end Cadence

end ChipEight
