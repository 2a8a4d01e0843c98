import ChipEight.Proofs.Lemmas.Halts
import ChipEight.Proofs.Lemmas.Timers
import ChipEight.Screen.Framebuffer

/-!
# Steps and ticks do not depend on each other

A tick changes the timers only, and only four instructions have to do with the timers or the speaker. A step of anything else and
a tick can be made in either order: the session is the same after them, and so is what every device was told. So in a run that
executes none of the four it does not matter where between the steps the ticks come.
-/

namespace ChipEight

variable {σ : Type}

/-- Whether an instruction has to do with the timers or the speaker. -/
def Instruction.timed (i : Instruction) : Bool := i.usesTimers || i.sounds

namespace Session

/-- Two outcomes that no device can tell apart: the sessions are the same, the speaker was asked for the same in the same order, and
all else that was told is the same in the same order. -/
structure Agree (a b : Session σ × List Effect) : Prop where
  session : a.1 = b.1
  calls : Effect.calls a.2 = Effect.calls b.2
  others : Effect.others a.2 = Effect.others b.2

theorem Agree.refl (a : Session σ × List Effect) : Agree a a := ⟨rfl, rfl, rfl⟩

theorem Agree.symm {a b : Session σ × List Effect} (h : Agree a b) : Agree b a :=
  ⟨h.session.symm, h.calls.symm, h.others.symm⟩

theorem Agree.trans {a b c : Session σ × List Effect} (h : Agree a b) (h' : Agree b c) : Agree a c :=
  ⟨h.session.trans h'.session, h.calls.trans h'.calls, h.others.trans h'.others⟩

variable [Surface σ]

/-- Histories whose ends agree agree when the same is done before them. -/
theorem Agree.cons {s : Session σ} {a : Action (Option Keypress)} {as bs : List (Action (Option Keypress))}
    (h : Agree ((s.act a).1.actAll as) ((s.act a).1.actAll bs)) : Agree (s.actAll (a :: as)) (s.actAll (a :: bs)) := by
  refine ⟨h.session, ?_, ?_⟩
  · simp only [actAll, Effect.calls_append, h.calls]
  · simp only [actAll, Effect.others_append, h.others]

/-- Histories that agree do so when the same is done after them. -/
theorem Agree.append {s : Session σ} {as bs : List (Action (Option Keypress))} (h : Agree (s.actAll as) (s.actAll bs))
    (rest : List (Action (Option Keypress))) : Agree (s.actAll (as ++ rest)) (s.actAll (bs ++ rest)) := by
  refine ⟨?_, ?_, ?_⟩
  · rw [actAll_append, actAll_append, h.session]
  · rw [told_actAll_append, told_actAll_append, Effect.calls_append, Effect.calls_append, h.calls, h.session]
  · rw [told_actAll_append, told_actAll_append, Effect.others_append, Effect.others_append, h.others, h.session]

/-! ## One step and one tick -/

/-- A step that uses no timer and a tick come to the same session in either order, and each tells the same in either place. -/
theorem actAll_step_tick {s : Session σ} (h : s.ExecutesNo Instruction.usesTimers) (look : Option Keypress) :
    (s.actAll [.step look, .tick]).1 = (s.actAll [.tick, .step look]).1 ∧
      (s.actAll [.step look, .tick]).2 = (s.step look).2 ++ s.tick.2 ∧
      (s.actAll [.tick, .step look]).2 = s.tick.2 ++ (s.step look).2 := by
  obtain ⟨hstep, htimers⟩ := step_withTimers h s.timers.tick.1 look
  -- the tick before the step is a change of the timers, and the tick after it finds the same timers
  have hafter : (s.step look).1.tick = ((s.step look).1.withTimers s.timers.tick.1, s.tick.2) := by
    rw [tick, htimers]
    rfl
  have hbefore : s.tick.1.step look = ((s.step look).1.withTimers s.timers.tick.1, (s.step look).2) := hstep
  refine ⟨?_, ?_, ?_⟩
  · show (s.step look).1.tick.1 = (s.tick.1.step look).1
    rw [hafter, hbefore]
  · show (s.step look).2 ++ ((s.step look).1.tick.2 ++ []) = _
    rw [hafter, List.append_nil]
  · show s.tick.2 ++ ((s.tick.1.step look).2 ++ []) = _
    rw [hbefore, List.append_nil]

/-- A step that executes none of the four and a tick can be made in either order, before whatever else is done. -/
theorem agree_tick_step {s : Session σ} (h : s.ExecutesNo Instruction.timed) (look : Option Keypress)
    (rest : List (Action (Option Keypress))) :
    Agree (s.actAll (.tick :: .step look :: rest)) (s.actAll (.step look :: .tick :: rest)) := by
  have htimers : s.ExecutesNo Instruction.usesTimers := fun op i hr hf hd => (Bool.or_eq_false_iff.mp (h op i hr hf hd)).1
  have hsounds : s.ExecutesNo Instruction.sounds := fun op i hr hf hd => (Bool.or_eq_false_iff.mp (h op i hr hf hd)).2
  obtain ⟨hsession, hst, hts⟩ := actAll_step_tick htimers look
  have hcalls : Effect.calls (s.actAll [.tick, .step look]).2 = Effect.calls (s.actAll [.step look, .tick]).2 := by
    rw [hst, hts, Effect.calls_append, Effect.calls_append, calls_step hsounds, List.append_nil, List.nil_append]
  have hothers : Effect.others (s.actAll [.tick, .step look]).2 = Effect.others (s.actAll [.step look, .tick]).2 := by
    have htick : Effect.others s.tick.2 = [] := Effect.others_map_speaker _
    rw [hst, hts, Effect.others_append, Effect.others_append, htick, List.append_nil, List.nil_append]
  exact Agree.append ⟨hsession.symm, hcalls, hothers⟩ rest

/-! ## Runs -/

/-- That a run executes none of the four instructions. -/
def Untimed (s : Session σ) (actions : List (Action (Option Keypress))) : Prop :=
  ∀ record, .executed record ∈ (s.actAll actions).2 → record.instruction.timed = false

/-- What a run executes can be read off what it tells beside the calls to the speaker. -/
theorem Untimed.of_agree {s : Session σ} {as bs : List (Action (Option Keypress))} (hu : s.Untimed as)
    (h : Agree (s.actAll as) (s.actAll bs)) : s.Untimed bs := by
  intro record hm
  have hother : .executed record ∈ Effect.others (s.actAll bs).2 := Effect.mem_others_iff.mpr ⟨hm, rfl⟩
  rw [← h.others] at hother
  exact hu record (Effect.mem_others_iff.mp hother).1

theorem Untimed.tail {s : Session σ} {a : Action (Option Keypress)} {rest : List (Action (Option Keypress))}
    (hu : s.Untimed (a :: rest)) : (s.act a).1.Untimed rest :=
  fun record hm => hu record (List.mem_append_right _ hm)

/-- The first step of a run that executes none of the four executes none of them. -/
theorem Untimed.executesNo {s : Session σ} {look : Option Keypress} {rest : List (Action (Option Keypress))}
    (hu : s.Untimed (.step look :: rest)) : s.ExecutesNo Instruction.timed := by
  intro op i hr hf hd
  refine hu ⟨s.registers.pc, op, i, (s.advance.execute s.registers.pc look i).session.registers⟩ (List.mem_append_left _ ?_)
  show _ ∈ (s.step look).2
  rw [step_of_decode hr hf hd]
  exact List.mem_append_right _ List.mem_cons_self

/-- The histories that make steps with the given answers of the keypad, in this order, and a number of ticks anywhere between
them. -/
inductive Interleaves : List (Option Keypress) → Nat → List (Action (Option Keypress)) → Prop where
  | nil : Interleaves [] 0 []
  | step {looks : List (Option Keypress)} {ticks : Nat} {actions : List (Action (Option Keypress))} (look : Option Keypress)
    (h : Interleaves looks ticks actions) : Interleaves (look :: looks) ticks (.step look :: actions)
  | tick {looks : List (Option Keypress)} {ticks : Nat} {actions : List (Action (Option Keypress))}
    (h : Interleaves looks ticks actions) : Interleaves looks (ticks + 1) (.tick :: actions)

/-- Histories that come from each other by exchanging a step and the tick next to it, some number of times. -/
inductive Swaps : List (Action (Option Keypress)) → List (Action (Option Keypress)) → Prop where
  | refl (actions : List (Action (Option Keypress))) : Swaps actions actions
  | later (look : Option Keypress) (rest : List (Action (Option Keypress))) :
    Swaps (.tick :: .step look :: rest) (.step look :: .tick :: rest)
  | earlier (look : Option Keypress) (rest : List (Action (Option Keypress))) :
    Swaps (.step look :: .tick :: rest) (.tick :: .step look :: rest)
  | cons (a : Action (Option Keypress)) {as bs : List (Action (Option Keypress))} (h : Swaps as bs) : Swaps (a :: as) (a :: bs)
  | trans {as bs cs : List (Action (Option Keypress))} (h : Swaps as bs) (h' : Swaps bs cs) : Swaps as cs

theorem Swaps.symm {as bs : List (Action (Option Keypress))} (h : Swaps as bs) : Swaps bs as := by
  induction h with
  | refl actions => exact .refl actions
  | later look rest => exact .earlier look rest
  | earlier look rest => exact .later look rest
  | cons a _ ih => exact .cons a ih
  | trans _ _ ih ih' => exact .trans ih' ih

/-- A tick can be moved behind any number of steps. -/
theorem swaps_tick_steps (looks : List (Option Keypress)) (rest : List (Action (Option Keypress))) :
    Swaps (.tick :: (looks.map .step ++ rest)) (looks.map .step ++ .tick :: rest) := by
  induction looks with
  | nil => exact .refl _
  | cons look looks ih => exact .trans (.later look _) (.cons _ ih)

/-- All ticks can be moved behind all steps. -/
theorem Interleaves.swaps {looks : List (Option Keypress)} {ticks : Nat} {actions : List (Action (Option Keypress))}
    (h : Interleaves looks ticks actions) : Swaps actions (looks.map .step ++ List.replicate ticks .tick) := by
  induction h with
  | nil => exact .refl _
  | step look _ ih => exact .cons _ ih
  | tick _ ih => exact .trans (.cons _ ih) (swaps_tick_steps _ _)

/-- In a run that executes none of the four, exchanging steps and ticks makes no difference. -/
theorem Swaps.agree {as bs : List (Action (Option Keypress))} (h : Swaps as bs) {s : Session σ} (hu : s.Untimed as) :
    Agree (s.actAll as) (s.actAll bs) := by
  induction h generalizing s with
  | refl actions => exact Agree.refl _
  | later look rest =>
    -- the step comes after the tick here, but a tick does not change what comes next
    have hno : s.ExecutesNo Instruction.timed := hu.tail.executesNo
    exact agree_tick_step hno look rest
  | earlier look rest => exact (agree_tick_step hu.executesNo look rest).symm
  | cons a _ ih => exact Agree.cons (ih hu.tail)
  | trans _ _ ih ih' => exact (ih hu).trans (ih' (hu.of_agree (ih hu)))

/-- A step and a tick come to the same in either order, unless the step reads or sets a timer or chooses a note; also when the step
halts the session, or the session has halted before. When it chooses a note, only the order of the calls to the speaker can differ.
So all histories that make the same steps and as many ticks come to the same, if one of them executes none of the four. -/
theorem steps_and_ticks_commute (s : Session σ) :
    (∀ look, (s.status = .running → ∀ i, s.Next i → i.timed = false) →
      Agree (s.actAll [.step look, .tick]) (s.actAll [.tick, .step look])) ∧
    (∀ look x, s.Next (.setPitch x) →
      (s.actAll [.step look, .tick]).1 = (s.actAll [.tick, .step look]).1 ∧
      Effect.others (s.actAll [.step look, .tick]).2 = Effect.others (s.actAll [.tick, .step look]).2 ∧
      (Effect.calls (s.actAll [.step look, .tick]).2).Perm (Effect.calls (s.actAll [.tick, .step look]).2)) ∧
    (∀ looks ticks as bs, Interleaves looks ticks as → Interleaves looks ticks bs →
      (∀ record, .executed record ∈ (s.actAll as).2 → record.instruction.timed = false) →
      Agree (s.actAll as) (s.actAll bs)) := by
  refine ⟨fun look h => ?_, fun look x hx => ?_, fun looks ticks as bs ha hb hu => ?_⟩
  · have hno : s.ExecutesNo Instruction.timed := fun op i hr hf hd => h hr i (next_of_fetch hf hd)
    exact (agree_tick_step hno look []).symm
  · have hno : s.ExecutesNo Instruction.usesTimers := by
      intro op i hr hf hd
      cases hx.unique (next_of_fetch hf hd)
      rfl
    obtain ⟨hsession, hst, hts⟩ := actAll_step_tick hno look
    have htick : Effect.others s.tick.2 = [] := Effect.others_map_speaker _
    refine ⟨hsession, ?_, ?_⟩
    · rw [hst, hts, Effect.others_append, Effect.others_append, htick, List.append_nil, List.nil_append]
    · rw [hst, hts, Effect.calls_append, Effect.calls_append]
      exact List.perm_append_comm
  · exact (ha.swaps.trans hb.swaps.symm).agree hu

/-- A session in a program that has just started a tone of two ticks, in front of a loop that counts. -/
def humming : Session (Framebuffer .standard) :=
  ((loaded (.blank .standard) [0x60, 0x02, 0xf0, 0x18, 0x70, 0x01, 0x12, 0x04] 0x200).actAll [.step none, .step none]).1

/-- A session that is about to choose a note while a tone of one tick sounds. -/
def tuning : Session (Framebuffer .standard) :=
  ((loaded (.blank .standard) [0x60, 0x01, 0xf0, 0x18, 0xf0, 0x17] 0x200).actAll [.step none, .step none]).1

/-- A tone can stop before or after the next count, and between the steps or behind them, but the end is the same. A tone that stops
while a note is chosen stops before or after the change. -/
theorem steps_and_ticks_commute_humming :
    humming.Next (.addByte 0 1) ∧ Agree (humming.actAll [.step none, .tick]) (humming.actAll [.tick, .step none]) ∧
      tuning.Next (.setPitch 0) ∧
      (tuning.actAll [.step none, .tick]).1 = (tuning.actAll [.tick, .step none]).1 ∧
      Effect.calls (tuning.actAll [.step none, .tick]).2 = [.pitch 65, .stop] ∧
      Effect.calls (tuning.actAll [.tick, .step none]).2 = [.stop, .pitch 65] ∧
      Interleaves [none, none, none] 2 [.step none, .tick, .tick, .step none, .step none] ∧
      Interleaves [none, none, none] 2 [.tick, .step none, .step none, .step none, .tick] ∧
      (∀ record, .executed record ∈ (humming.actAll [.step none, .tick, .tick, .step none, .step none]).2 →
        record.instruction.timed = false) ∧
      Effect.calls (humming.actAll [.step none, .tick, .tick, .step none, .step none]).2 = [.stop] ∧
      Agree (humming.actAll [.step none, .tick, .tick, .step none, .step none])
        (humming.actAll [.tick, .step none, .step none, .step none, .tick]) := by
  have hcounts : humming.Next (.addByte 0 1) := ⟨_, ⟨by decide +kernel, rfl⟩, by decide +kernel⟩
  have hchooses : tuning.Next (.setPitch 0) := ⟨_, ⟨by decide +kernel, rfl⟩, by decide +kernel⟩
  have hone := (steps_and_ticks_commute humming).1 none fun _ i hi => by
    cases hi.unique hcounts
    rfl
  have hnote := (steps_and_ticks_commute tuning).2.1 none 0 hchooses
  have ha : Interleaves [none, none, none] 2 [.step none, .tick, .tick, .step none, .step none] :=
    .step none (.tick (.tick (.step none (.step none .nil))))
  have hb : Interleaves [none, none, none] 2 [.tick, .step none, .step none, .step none, .tick] :=
    .tick (.step none (.step none (.step none (.tick .nil))))
  have hall : ∀ e ∈ (humming.actAll [.step none, .tick, .tick, .step none, .step none]).2,
      (match e with
        | .executed record => record.instruction.timed
        | _ => false) = false := by
    decide +kernel
  have hu : ∀ record, .executed record ∈ (humming.actAll [.step none, .tick, .tick, .step none, .step none]).2 →
      record.instruction.timed = false := fun record hm => hall _ hm
  exact ⟨hcounts, hone, hchooses, hnote.1, by decide +kernel, by decide +kernel, ha, hb, hu, by decide +kernel,
    (steps_and_ticks_commute humming).2.2 _ _ _ _ ha hb hu⟩

end Session

end ChipEight
