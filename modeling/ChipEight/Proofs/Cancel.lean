import ChipEight.Proofs.Lemmas.Drive
import ChipEight.Screen.Framebuffer

/-!
# A cancel stops a run

Whatever the program does, a run looks at the keypad in every tick, and from every event on a tick comes after finitely many steps.
So a run is over with the first tick that finds a cancel, if it is not over before.
-/

namespace ChipEight.Console

open Schedule

variable {σ κ : Type} [Surface σ] [Keypad κ]

/-- That the keypad answers with a cancel if it is looked at in the `n`-th event of a run that has come so far. -/
def FindsCancel (clock : Nat → Nat → Nat) (cad : Cadence) (c : Console σ κ) (n : Nat) : Prop :=
  ∀ timed, cad.events (n + 1) = cad.events n ++ [timed] →
    (c.actAll (script clock (cad.events n))).session.status = .running →
    (Keypad.look (c.actAll (script clock (cad.events n))).keypad (clock n timed.due)).1 = some .cancel

section

variable {clock : Nat → Nat → Nat} {limit : Option Nat} {cad : Cadence} {c₀ c : Console σ κ} {events : List TimedEvent}
  {s : Schedule} {n : Nat}

omit [Surface σ] [Keypad κ] in
/-- A drive that would be over behind the event at place `n` and goes on is not behind that event. -/
theorem length_le_of_goesOn (hle : events.length ≤ n + 1)
    (hover : events.length = n + 1 → c.session.status = .halted .cancelled) (hgo : events = [] ∨ c.session.status = .running) :
    events.length ≤ n := by
  rcases hgo with rfl | hrun
  · exact Nat.zero_le n
  · refine Nat.le_of_lt_succ (Nat.lt_of_le_of_ne hle fun hlen => ?_)
    cases (hover hlen).symm.trans hrun

/-- A drive does not come further than a tick that finds a cancel, and there it is over. -/
theorem Driven.cancelled (h : Driven clock limit cad c₀ events s c)
    (htick : (cad.events (n + 1))[n]?.map (·.event) = some .tick) (hcancel : c₀.FindsCancel clock cad n) :
    events.length ≤ n + 1 ∧ (events.length = n + 1 → c.session.status = .halted .cancelled) := by
  induction h with
  | start => exact ⟨Nat.zero_le _, nofun⟩
  | @event events e s later c h hgo hnext hhandles ih =>
    obtain ⟨hle, hover⟩ := ih
    have hlast : cad.events (events.length + 1) = events ++ [e] := congrArg Prod.fst (take_succ_of_next? h.take_eq rfl hnext)
    have hin := length_le_of_goesOn hle hover hgo
    rw [List.length_append, List.length_singleton]
    refine ⟨Nat.succ_le_succ hin, fun hlen => ?_⟩
    obtain rfl : events.length = n := Nat.succ.inj hlen
    rw [hlast, List.getElem?_concat_length] at htick
    have hevent : e.event = .tick := Option.some.inj htick
    -- the first event is a step, so the tick is not the first, and the session has gone on until here
    have hrun : c.session.status = .running := by
      rcases hgo with rfl | hrun
      · cases (h.event_of_nil hnext).symm.trans hevent
      · exact hrun
    have hlook := hcancel e (by rw [hlast, h.events_eq])
    rw [h.events_eq, ← h.eq_actAll] at hlook
    rw [hevent]
    exact status_tick_of_cancel hrun (hlook hrun)

/-- With presents that succeed, a drive to a tick that finds a cancel ends in three ways: with the cancel, before the tick because
the session has halted, or before it because the steps are used up. -/
theorem Driven.end_of_cancel {result : Console σ κ × Verdict} (h : Driven clock limit cad c₀ events s c)
    (hends : c.Ends limit events s result) (hfit : cad.Fits (n + 1))
    (htick : (cad.events (n + 1))[n]?.map (·.event) = some .tick) (hcancel : c₀.FindsCancel clock cad n)
    (hpresents : ∀ i, i ≤ n + 1 → c₀.PresentsSucceed (script clock (cad.events i))) :
    result = c.conclude ∧
      (c.session.status = .halted .cancelled ∨
        events.length ≤ n ∧ ((∃ reason, c.session.status = .halted reason) ∨
          c.session.status = .running ∧ limit = some (stepCount events))) := by
  obtain ⟨hle, hover⟩ := h.cancelled htick hcancel
  cases hends with
  | outOfTime hgo hnext =>
    have hin := length_le_of_goesOn hle hover hgo
    exact absurd (hfit.mono (Nat.succ_le_succ hin)) (h.not_fits hnext)
  | failed hgo hnext herror =>
    have hin := length_le_of_goesOn hle hover hgo
    have hlast := congrArg Prod.fst (take_succ_of_next? h.take_eq rfl hnext)
    have hsucceed := hpresents _ (Nat.succ_le_succ hin)
    rw [show cad.events (events.length + 1) = _ from hlast, script_append_singleton, presentsSucceed_append,
      ← h.eq_actAll] at hsucceed
    obtain ⟨-, -, hpresent, -⟩ := hsucceed
    cases herror.symm.trans (hpresent rfl)
  | usedUp hgo hnext hlimit =>
    have hin := length_le_of_goesOn hle hover hgo
    refine ⟨rfl, Or.inr ⟨hin, ?_⟩⟩
    cases hstatus : c.session.status with
    | halted reason => exact Or.inl ⟨reason, rfl⟩
    | running =>
      cases limit with
      | none => cases hlimit
      | some m =>
        have hm : m ≤ stepCount events := of_decide_eq_true hlimit
        exact Or.inr ⟨rfl, congrArg some (Nat.le_antisymm hm h.stepCount_le)⟩
  | @halted reason hne hs =>
    refine ⟨rfl, ?_⟩
    rcases Nat.lt_or_ge n events.length with hlt | hge
    · exact Or.inl (hover (Nat.le_antisymm hle hlt))
    · exact Or.inr ⟨hge, Or.inl ⟨reason, hs⟩⟩

end

/-- A run in which presents succeed, and in which the keypad answers with a cancel when it is looked at in the first tick from event
`e` on (as it does if it answers with a cancel from event `e` on), finishes, whatever the program, the cadence, the clock and the
limit are. That tick comes after nothing but steps, and the run handles no event behind it. The status is that of a cancel, unless
the session has halted or the steps are used up before that tick. If `e` is the first event, there is at most one tick, and there
are no more steps than fit into its period, rounded up. -/
theorem run_stops_on_cancel (clock : Nat → Nat → Nat) (cad : Cadence) (limit : Option Nat) (c : Console σ κ) (e : Nat)
    (hfit : cad.Fits (cad.tickFrom e + 1))
    (hpresents : ∀ n, n ≤ cad.tickFrom e + 1 → c.PresentsSucceed (script clock (cad.events n) ++ [.present]))
    (hcancel : c.FindsCancel clock cad (cad.tickFrom e)) :
    (e ≤ cad.tickFrom e ∧ (cad.events (cad.tickFrom e + 1))[cad.tickFrom e]?.map (·.event) = some .tick ∧
      ∀ n, e ≤ n → n < cad.tickFrom e → (cad.events (cad.tickFrom e + 1))[n]?.map (·.event) = some .step) ∧
    ∃ (events : List TimedEvent) (actions : List (Action Nat)) (status : Status),
      events = cad.events events.length ∧ events.length ≤ cad.tickFrom e + 1 ∧ actions = script clock events ++ [.present] ∧
      c.run clock cad limit = (c.actAll actions, .finished status) ∧ status = (c.actAll actions).session.status ∧
      (status = .halted .cancelled ∨
        events.length ≤ cad.tickFrom e ∧ ((∃ reason, status = .halted reason) ∨
          status = .running ∧ limit = some (stepCount events))) ∧
      (e = 0 → actions.countP Action.isStep ≤ cad.stepRate ⌈/⌉ cad.tickRate ∧ actions.count .tick ≤ 1) := by
  obtain ⟨htick, hsteps⟩ := Cadence.events_tickFrom hfit
  refine ⟨⟨cad.le_tickFrom e, htick, hsteps⟩, ?_⟩
  have hstart : Driven clock limit cad c [] (.start cad) c := .start
  obtain ⟨events, s, last, hd, hends⟩ := hstart.ends (Or.inl rfl)
  obtain ⟨hle, -⟩ := hd.cancelled htick hcancel
  have hscripts : ∀ n, n ≤ cad.tickFrom e + 1 → c.PresentsSucceed (script clock (cad.events n)) :=
    fun n hn => (presentsSucceed_append.mp (hpresents n hn)).1
  obtain ⟨hresult, hstatus⟩ := hd.end_of_cancel hends hfit htick hcancel hscripts
  have hdone : c.actAll (script clock events ++ [.present]) = last.present.2 := by
    rw [actAll_append_present, ← hd.eq_actAll]
  have hpresent : last.present.1 = none := by
    have hsucceed := hpresents _ hle
    rw [hd.events_eq, presentsSucceed_append, ← hd.eq_actAll] at hsucceed
    exact hsucceed.2.1 rfl
  refine ⟨events, _, last.session.status, hd.events_eq.symm, hle, rfl, ?_, ?_, hstatus, ?_⟩
  · rw [hdone]
    rcases last.conclude_cases with ⟨-, hconclude⟩ | ⟨error, herror, -⟩
    · exact hresult.trans hconclude
    · cases hpresent.symm.trans herror
  · rw [hdone, status_present]
  · rintro rfl
    obtain ⟨hfew, hone⟩ := Cadence.counts_to_first_tick hfit hle
    rw [hd.events_eq] at hfew hone
    rw [countP_isStep_append_present, countP_isStep_script, List.count_append, count_tick_script]
    exact ⟨hfew, hone⟩

/-- A keypad on which a cancel is latched from some time on. -/
structure EscapeFrom where
  time : Nat

instance : Keypad EscapeFrom where
  look k now := (if k.time ≤ now then some .cancel else none, k)

/-- A console in a program that jumps to itself for ever and looks at no key, with a cancel after six tenths of a second. -/
def looping : Console (Framebuffer .standard) EscapeFrom :=
  ((start .standard (.ofSeed 0) (.blank .standard) ⟨600000000⟩ .working).load [0x12, 0x00] 0x200).2

/-- Three steps and two ticks a second and no limit: the cancel comes behind the first tick, in front of the third step, and the
second tick, the fifth event, finds it. -/
theorem run_stops_on_cancel_looping :
    Cadence.tickFrom ⟨3, 2⟩ 3 = 4 ∧ looping.FindsCancel punctual ⟨3, 2⟩ 4 ∧
      ∃ events : List TimedEvent, events = Cadence.events ⟨3, 2⟩ events.length ∧ events.length ≤ 5 ∧
        looping.run punctual ⟨3, 2⟩ none =
          (looping.actAll (script punctual events ++ [.present]), .finished (.halted .cancelled)) := by
  have htickFrom : Cadence.tickFrom ⟨3, 2⟩ 3 = 4 := by decide +kernel
  have hfit : Cadence.Fits ⟨3, 2⟩ 5 := Cadence.fits_of_lt (by decide) (by decide)
  have hfifth : Cadence.events ⟨3, 2⟩ 5 = Cadence.events ⟨3, 2⟩ 4 ++ [⟨1000000000, .tick⟩] := by decide +kernel
  have hcancel : looping.FindsCancel punctual ⟨3, 2⟩ 4 := by
    intro timed htimed _
    cases List.append_cancel_left (hfifth.symm.trans htimed)
    decide +kernel
  obtain ⟨-, events, _, status, hevents, hle, rfl, hrun, -⟩ :=
    run_stops_on_cancel punctual ⟨3, 2⟩ none looping 3 (htickFrom ▸ hfit)
      (fun n _ => presentsSucceed_of_forall (fun _ => rfl) looping _) (htickFrom ▸ hcancel)
  have hverdict : (looping.run punctual ⟨3, 2⟩ none).2 = .finished (.halted .cancelled) := by decide +kernel
  rw [htickFrom] at hle
  rw [hrun] at hverdict
  cases hverdict
  exact ⟨htickFrom, hcancel, events, hevents, hle, hrun⟩

end ChipEight.Console
