import ChipEight.Proofs.Lemmas.Timers
import ChipEight.Screen.Framebuffer

/-!
# Timers and the tone

Both timers count ticks since they were last set (`Session.LastSet`), whatever else is done in between, and the speaker sounds
exactly while the sound timer runs (`Session.InTune`): the instruction that sets it starts or stops the tone, and the tick that brings
it to zero stops it. No other step starts or stops a tone, and no other tick calls the speaker.
-/

namespace ChipEight

variable {σ κ : Type}

/-- One of the two timers. -/
inductive Timer where
  | delay
  | sound
  deriving DecidableEq

/-- The ticks left on a timer. -/
def Timers.left (t : Timers) : Timer → UInt8
  | .delay => t.delay.left
  | .sound => t.sound.left

/-- The value that an instruction sets a timer to, if it sets it. -/
def Instruction.sets? (r : Registers) : Timer → Instruction → Option UInt8
  | .delay, .setDelay x => some (r.get x)
  | .sound, .setSound x => some (r.get x)
  | _, _ => none

/-- The value that a turn sets a timer to, if it sets it. -/
def Turn.sets? (timer : Timer) (t : Turn σ) : Option UInt8 := t.instruction.sets? t.before.registers timer

/-- Whether a call starts or stops a tone. -/
def SpeakerCall.isTone : SpeakerCall → Bool
  | .start _ | .stop => true
  | .pitch _ => false

/-- The tones that a speaker is asked to start and to stop, in order. -/
def Effect.tones (told : List Effect) : List SpeakerCall := (calls told).filter SpeakerCall.isTone

@[simp] theorem Effect.tones_append (told more : List Effect) : tones (told ++ more) = tones told ++ tones more := by
  simp [tones]

/-! ## One tick -/

theorem Countdown.left_tick (c : Countdown) : c.tick.1.left.toNat = c.left.toNat - 1 := by
  unfold tick
  split
  · rename_i h
    rw [h]
    rfl
  · rename_i h
    have hpos : c.left.toNat ≠ 0 := fun e => h (UInt8.toNat_inj.mp e)
    show (c.left - 1).toNat = _
    rw [UInt8.toNat_sub_of_le c.left 1 (UInt8.le_iff_toNat_le.mpr (by show 1 ≤ _; omega))]
    rfl

theorem Timers.left_tick (t : Timers) (timer : Timer) : (t.tick.1.left timer).toNat = (t.left timer).toNat - 1 := by
  cases timer with
  | delay => exact t.delay.left_tick
  | sound => exact t.sound.left_tick

/-- A tick stops the tone if it is the one that brings the sound timer to zero, and else leaves the speaker alone. -/
theorem Timers.calls_tick (t : Timers) : t.tick.2 = if (t.left .sound).toNat = 1 then [.stop] else [] := by
  have hone : t.sound.left = 1 ↔ t.sound.left.toNat = 1 := UInt8.toNat_inj.symm
  unfold tick Countdown.tick left
  by_cases hzero : t.sound.left = 0
  · simp [hzero]
  · simp [hzero, hone]

/-! ## One instruction -/

namespace Instruction

/-- An instruction changes the timer it sets and no other. -/
theorem left_timersAfter (r : Registers) (t : Timers) (timer : Timer) (i : Instruction) :
    (i.timersAfter r t).left timer = (i.sets? r timer).getD (t.left timer) := by
  cases i with
  | setDelay | setSound => cases timer <;> rfl
  | _ => cases timer <;> rfl

/-- An instruction starts or stops a tone only by setting the sound timer. -/
theorem tones_tells (r : Registers) (t : Timers) (address : UInt16) (i : Instruction) :
    Effect.tones (i.tells r t address) =
      (i.sets? r .sound).toList.map fun n => if n = 0 then .stop else .start (Tone.microseconds n) := by
  cases i with
  | setSound x =>
    simp only [tells, sets?, Timers.setSound, Option.toList_some, List.map_cons, List.map_nil]
    split <;> rfl
  | setPitch x =>
    simp only [tells]
    cases Tone.note? (r.get x) <;> rfl
  | _ => rfl

/-- An instruction that sets a timer calls the speaker for the tone only. -/
theorem calls_tells_of_sets? {r : Registers} {timer : Timer} {i : Instruction} {n : UInt8} (h : i.sets? r timer = some n)
    (t : Timers) (address : UInt16) :
    Effect.calls (i.tells r t address) =
      if timer = .sound then [if n = 0 then .stop else .start (Tone.microseconds n)] else [] := by
  cases timer with
  | delay =>
    cases i with
    | setDelay x => rfl
    | _ => cases h
  | sound =>
    cases i with
    | setSound x =>
      cases h
      rfl
    | _ => cases h

end Instruction

/-! ## One action -/

namespace Session

variable [Surface σ] {s : Session σ} {timer : Timer}

/-- A turn that sets a timer. -/
theorem step_of_sets? {look : Option Keypress} {t : Turn σ} (ht : s.turn? look = some t) {n : UInt8}
    (hn : t.sets? timer = some n) :
    (s.step look).1.timers.left timer = n ∧
      Effect.calls (s.step look).2 =
        if timer = .sound then [if n = 0 then .stop else .start (Tone.microseconds n)] else [] := by
  obtain ⟨htold, htimers⟩ := step_of_turn? ht
  obtain ⟨op, i, -, -, -, rfl⟩ := turn?_eq_some_iff.mp ht
  have hi : i.sets? s.registers timer = some n := hn
  constructor
  · rw [htimers, Instruction.left_timersAfter, hi]
    rfl
  · rw [htold, Effect.calls_append, Instruction.calls_tells_of_sets? hi]
    exact List.append_nil _

/-- What does not set a timer leaves it alone, unless it is a tick. -/
theorem left_act {a : Action (Option Keypress)} (h : ∀ t ∈ s.turnOf? a, t.sets? timer = none) :
    ((s.act a).1.timers.left timer).toNat = (s.timers.left timer).toNat - if a = .tick then 1 else 0 := by
  cases a with
  | load program address =>
    simp only [act, load]
    split <;> rfl
  | step look =>
    simp only [act, timers_step]
    cases ht : s.turn? look with
    | none => rfl
    | some t =>
      have hsets := h t ht
      obtain ⟨op, i, -, -, -, rfl⟩ := turn?_eq_some_iff.mp ht
      have hi : i.sets? s.registers timer = none := hsets
      simp only [Option.map_some, Option.elim_some, Instruction.left_timersAfter, hi]
      rfl
  | tick => exact s.timers.left_tick timer
  | poll look =>
    simp only [act, poll]
    split
    · rfl
    · dsimp only
      split <;> rfl
  | present => rfl

/-- What does not set the sound timer starts no tone, and stops one only if it is the tick that brings the timer to zero. -/
theorem tones_act {a : Action (Option Keypress)} (h : ∀ t ∈ s.turnOf? a, t.sets? .sound = none) :
    Effect.tones (s.act a).2 = if a = .tick ∧ (s.timers.left .sound).toNat = 1 then [.stop] else [] := by
  cases a with
  | load | present => rfl
  | step look =>
    simp only [act, reduceCtorEq, false_and, if_false]
    cases ht : s.turn? look with
    | none =>
      rw [(step_of_turn?_eq_none ht).1]
      rfl
    | some t =>
      have hsets := h t ht
      have htold := (step_of_turn? ht).1
      obtain ⟨op, i, -, -, -, rfl⟩ := turn?_eq_some_iff.mp ht
      have hi : i.sets? s.registers .sound = none := hsets
      rw [htold, Effect.tones_append, Instruction.tones_tells, hi]
      rfl
  | tick =>
    simp only [act, tick, Timers.calls_tick, true_and]
    split <;> rfl
  | poll look =>
    simp only [act, poll]
    split <;> rfl

/-! ## Runs -/

omit [Surface σ] in
theorem count_tick_cons (a : Action (Option Keypress)) (rest : List (Action (Option Keypress))) :
    (a :: rest).count .tick = rest.count .tick + if a = .tick then 1 else 0 := by
  simp [List.count_cons]

/-- A timer that is not set counts down with the ticks. -/
theorem left_actAll {actions : List (Action (Option Keypress))} (h : ∀ t ∈ s.turns actions, t.sets? timer = none) :
    ((s.actAll actions).1.timers.left timer).toNat = (s.timers.left timer).toNat - actions.count .tick := by
  induction actions generalizing s with
  | nil => rfl
  | cons a rest ih =>
    obtain ⟨hfirst, hrest⟩ := forall_turns_cons.mp h
    rw [actAll, ih hrest, left_act hfirst, count_tick_cons, Nat.sub_sub, Nat.add_comm]

/-- A sound timer that is not set stops the tone once, at the tick that brings it to zero. -/
theorem tones_actAll {actions : List (Action (Option Keypress))} (h : ∀ t ∈ s.turns actions, t.sets? .sound = none) :
    Effect.tones (s.actAll actions).2 =
      if 0 < (s.timers.left .sound).toNat ∧ (s.timers.left .sound).toNat ≤ actions.count .tick then [.stop] else [] := by
  induction actions generalizing s with
  | nil =>
    have hnever : ¬(0 < (s.timers.left .sound).toNat ∧ (s.timers.left .sound).toNat ≤ 0) := by omega
    exact (if_neg hnever).symm
  | cons a rest ih =>
    obtain ⟨hfirst, hrest⟩ := forall_turns_cons.mp h
    rw [actAll, Effect.tones_append, ih hrest, left_act hfirst, tones_act hfirst, count_tick_cons]
    generalize (s.timers.left .sound).toNat = left
    by_cases ha : a = .tick
    · rw [if_pos ha]
      by_cases hlast : left = 1
      · have hdone : ¬(0 < left - 1 ∧ left - 1 ≤ rest.count .tick) := by omega
        rw [if_pos ⟨ha, hlast⟩, if_neg hdone, if_pos (by omega)]
        rfl
      · have hlater : (0 < left - 1 ∧ left - 1 ≤ rest.count .tick) ↔ (0 < left ∧ left ≤ rest.count .tick + 1) := by omega
        rw [if_neg fun hc => hlast hc.2, List.nil_append]
        simp only [hlater]
    · rw [if_neg fun hc => ha hc.1, if_neg ha]
      rfl

/-- When a timer was last set in a history: to a value, so many ticks ago. A timer that was never set counts as set to 0 at the
start. -/
inductive LastSet (timer : Timer) (s : Session σ) : List (Action (Option Keypress)) → UInt8 → Nat → Prop where
  | never {actions : List (Action (Option Keypress))} (h : ∀ t ∈ s.turns actions, t.sets? timer = none) :
    LastSet timer s actions 0 (actions.count .tick)
  | set {before after : List (Action (Option Keypress))} {look : Option Keypress} {t : Turn σ} {value : UInt8}
    (ht : (s.actAll before).1.turn? look = some t) (hvalue : t.sets? timer = some value)
    (h : ∀ u ∈ t.after.turns after, u.sets? timer = none) :
    LastSet timer s (before ++ .step look :: after) value (after.count .tick)

/-- Every history has set a timer last at some time. -/
theorem exists_lastSet (timer : Timer) (s : Session σ) (actions : List (Action (Option Keypress))) :
    ∃ value ticks, LastSet timer s actions value ticks := by
  induction actions generalizing s with
  | nil =>
    have hnone : ∀ t ∈ s.turns [], t.sets? timer = none := by
      intro t hm
      cases hm
    exact ⟨0, _, LastSet.never hnone⟩
  | cons a rest ih =>
    obtain ⟨value, ticks, hlast⟩ := ih (s.act a).1
    cases hlast with
    | @set before after look t _ ht hvalue h =>
      have hrest : (s.actAll (a :: before)).1.turn? look = some t := ht
      exact ⟨value, _, LastSet.set hrest hvalue h⟩
    | never h =>
      cases hturn : (s.turnOf? a).bind (Turn.sets? timer) with
      | none =>
        have hfirst : ∀ t ∈ s.turnOf? a, t.sets? timer = none := Option.bind_eq_none_iff.mp hturn
        exact ⟨0, _, LastSet.never (forall_turns_cons.mpr ⟨hfirst, h⟩)⟩
      | some value =>
        obtain ⟨t, ht, hvalue⟩ := Option.bind_eq_some_iff.mp hturn
        cases a with
        | step look =>
          have hnil : (s.actAll []).1.turn? look = some t := ht
          have hrest : ∀ u ∈ t.after.turns rest, u.sets? timer = none := after_of_turn? ht ▸ h
          exact ⟨value, _, LastSet.set hnil hvalue hrest⟩
        | _ => cases ht

/-- What is left of a timer that started at zero. -/
theorem LastSet.left {actions : List (Action (Option Keypress))} {value : UInt8} {ticks : Nat}
    (h : LastSet timer s actions value ticks) (hs : s.timers.left timer = 0) :
    ((s.actAll actions).1.timers.left timer).toNat = value.toNat - ticks := by
  cases h with
  | never h => rw [left_actAll h, hs]
  | @set before after look t _ ht hvalue h =>
    have hrest := left_actAll h
    rw [after_of_turn? ht, (step_of_sets? ht hvalue).1] at hrest
    rw [actAll_append]
    exact hrest

/-- That a tone was the latest to start, and not to stop, exactly if the sound timer runs. -/
def InTune (s : Session σ) (told : List Effect) : Prop :=
  (∃ microseconds, (Effect.tones told).getLast? = some (.start microseconds)) ↔ s.timers.left .sound ≠ 0

/-- Whatever is done keeps the tone and the sound timer together. -/
theorem InTune.act {told : List Effect} (h : s.InTune told) (a : Action (Option Keypress)) :
    (s.act a).1.InTune (told ++ (s.act a).2) := by
  unfold InTune at h ⊢
  rw [Effect.tones_append]
  cases hturn : (s.turnOf? a).bind (Turn.sets? .sound) with
  | none =>
    have hset : ∀ t ∈ s.turnOf? a, t.sets? .sound = none := Option.bind_eq_none_iff.mp hturn
    have hleft := left_act hset
    rw [tones_act hset]
    split
    · rename_i hlast
      have hzero : (s.act a).1.timers.left .sound = 0 := by
        rw [← UInt8.toNat_inj, hleft, hlast.1, hlast.2]
        rfl
      simp [hzero]
    · rename_i hgoes
      have hzero (u : UInt8) : u = 0 ↔ u.toNat = 0 := UInt8.toNat_inj.symm
      have hsame : (s.act a).1.timers.left .sound ≠ 0 ↔ s.timers.left .sound ≠ 0 := by
        rw [ne_eq, ne_eq, hzero, hzero, hleft]
        split
        · rename_i ha
          have hnot : (s.timers.left .sound).toNat ≠ 1 := fun e => hgoes ⟨ha, e⟩
          omega
        · omega
      rw [List.append_nil, hsame]
      exact h
  | some n =>
    obtain ⟨t, ht, hn⟩ := Option.bind_eq_some_iff.mp hturn
    cases a with
    | step look =>
      obtain ⟨hleft, hcalls⟩ := step_of_sets? ht hn
      have htones : Effect.tones (s.act (.step look)).2 = [if n = 0 then .stop else .start (Tone.microseconds n)] := by
        rw [Effect.tones, Session.act, hcalls, if_pos rfl]
        split <;> rfl
      rw [htones, List.getLast?_concat, Session.act, hleft]
      by_cases hzero : n = 0
      · simp [hzero]
      · simp [hzero]
    | _ => cases ht

/-- A history keeps the tone and the sound timer together. -/
theorem InTune.actAll {told : List Effect} (h : s.InTune told) (actions : List (Action (Option Keypress))) :
    (s.actAll actions).1.InTune (told ++ (s.actAll actions).2) := by
  induction actions generalizing s told with
  | nil =>
    rw [Session.actAll, List.append_nil]
    exact h
  | cons a rest ih =>
    rw [Session.actAll, ← List.append_assoc]
    exact ih (h.act a)

end Session

namespace Console

variable [Surface σ] [Keypad κ]

/-- The timers and the tone over any history. A timer holds what it was last set to less the ticks since then, and never less than
zero. The latest call that concerns a tone started one exactly while the sound timer runs. Setting the sound timer to `n` starts a tone
of `n` sixtieths of a second, or stops it if `n` is 0, and unless the timer is set again, one stop follows, at the `n`-th tick. No other
tick calls the speaker. What a console does to its session is such a history, whatever its keypad, speaker and tracer are. -/
theorem timers_and_tone (settings : Settings) (entropy : ByteStream) (surface : σ) :
    let s := (Session.start settings entropy surface).1
    -- each timer is what it was last set to less the ticks since
    (∀ timer actions, (∃ value ticks, s.LastSet timer actions value ticks) ∧
      ∀ value ticks, s.LastSet timer actions value ticks →
        ((s.actAll actions).1.timers.left timer).toNat = value.toNat - ticks) ∧
    -- a tone sounds exactly while the sound timer runs
    (∀ actions, (∃ microseconds, (Effect.tones (s.actAll actions).2).getLast? = some (.start microseconds)) ↔
      (s.actAll actions).1.timers.left .sound ≠ 0) ∧
    -- the instruction that sets the sound timer makes one call, and one stop follows unless the timer is set again
    (∀ (u : Session σ) look turn n, u.turn? look = some turn → turn.sets? .sound = some n →
      Effect.calls (u.step look).2 = [if n = 0 then .stop else .start (n.toNat * 1000000 / 60)] ∧
      ∀ after, (∀ t ∈ turn.after.turns after, t.sets? .sound = none) →
        Effect.tones (turn.after.actAll after).2 = if 0 < n.toNat ∧ n.toNat ≤ after.count .tick then [.stop] else []) ∧
    -- a tick calls the speaker only if it brings the sound timer to zero
    (∀ actions value ticks, s.LastSet .sound actions value ticks →
      Effect.calls (s.actAll actions).1.tick.2 = if value.toNat = ticks + 1 then [.stop] else []) ∧
    -- the delay timer never calls it
    (∀ (u : Session σ) look turn n, u.turn? look = some turn → turn.sets? .delay = some n →
      Effect.calls (u.step look).2 = []) ∧
    (∀ (u : Session σ) delay, (u.withTimers { u.timers with delay := delay }).tick.2 = u.tick.2) ∧
    -- the devices choose the answers of the keypad and nothing else
    (∀ (keypad : κ) speaker tracer history,
      let c : Console σ κ := { start settings entropy surface keypad speaker with tracer := tracer }
      (c.actAll history).session = (s.actAll (c.answered history)).1 ∧
        (c.actAll history).told = (s.actAll (c.answered history)).2.reverse ++ [.speaker (.pitch settings.pitch)]) := by
  intro s
  have hstart (timer : Timer) : s.timers.left timer = 0 := by cases timer <;> rfl
  refine ⟨fun timer actions => ?_, fun actions => ?_, ?_, ?_, ?_, fun u delay => rfl, ?_⟩
  · exact ⟨s.exists_lastSet timer actions, fun value ticks h => h.left (hstart timer)⟩
  · have htune : s.InTune [] := by
      unfold Session.InTune
      rw [hstart]
      simp [Effect.tones, Effect.calls]
    exact htune.actAll actions
  · intro u look turn n ht hn
    obtain ⟨hleft, hcalls⟩ := Session.step_of_sets? ht hn
    refine ⟨hcalls, fun after h => ?_⟩
    rw [Session.tones_actAll h, Session.after_of_turn? ht, hleft]
  · intro actions value ticks h
    have hleft := h.left (hstart .sound)
    have hone : (value.toNat - ticks = 1) ↔ (value.toNat = ticks + 1) := by omega
    rw [Session.tick, Timers.calls_tick, hleft]
    simp only [hone]
    split <;> rfl
  · intro u look turn n ht hn
    exact (Session.step_of_sets? ht hn).2
  · intro keypad speaker tracer history c
    obtain ⟨hsession, htold⟩ := c.actAll_answered history
    have hbegun : c.session = s := by
      show (start settings entropy surface keypad speaker).session = s
      rw [start, session_settle]
    rw [hbegun] at hsession htold
    exact ⟨hsession, htold⟩

/-- A history at whose end the sound timer is about to be set to 3, in front of a loop that counts. -/
def upToTone : List (Action (Option Keypress)) :=
  [.load [0x60, 0x03, 0xf0, 0x18, 0x70, 0x01, 0x12, 0x04] 0x200, .tick, .step none]

/-- A tone of three ticks: it starts with the instruction, still sounds two ticks later, and the next tick stops it, however many
steps are made in between. -/
theorem timers_and_tone_three_ticks :
    let s := (Session.start .standard (.ofSeed 0) (Framebuffer.blank .standard)).1
    let later := upToTone ++ .step none :: [.tick, .step none, .tick]
    s.LastSet .sound later 3 2 ∧ ((s.actAll later).1.timers.left .sound).toNat = 1 ∧
      Effect.calls ((s.actAll upToTone).1.step none).2 = [.start 50000] ∧
      Effect.calls (s.actAll later).1.tick.2 = [.stop] ∧
      Effect.tones (((s.actAll upToTone).1.step none).1.actAll [.tick, .step none, .tick, .tick, .step none, .tick]).2 =
        [.stop] := by
  intro s later
  obtain ⟨hleft, -, htone, htick, -, -, -⟩ :=
    @timers_and_tone (Framebuffer .standard) HeldKey _ _ .standard (.ofSeed 0) (.blank .standard)
  have hsets : ((s.actAll upToTone).1.turn? none).bind (Turn.sets? .sound) = some 3 := by decide +kernel
  obtain ⟨turn, hturn, hthree⟩ := Option.bind_eq_some_iff.mp hsets
  have hafter := Session.after_of_turn? hturn
  have hquiet : ∀ t ∈ turn.after.turns [.tick, .step none, .tick, .tick, .step none, .tick], t.sets? .sound = none := by
    rw [hafter]
    decide +kernel
  have hfirst : ∀ t ∈ turn.after.turns [.tick, .step none, .tick], t.sets? .sound = none := by
    rw [hafter]
    decide +kernel
  have hlast : s.LastSet .sound later 3 2 := .set hturn hthree hfirst
  obtain ⟨hcalls, hstops⟩ := htone _ none turn 3 hturn hthree
  refine ⟨hlast, ?_, ?_, ?_, ?_⟩
  · rw [(hleft .sound later).2 3 2 hlast]
    decide
  · exact hcalls.trans (by decide)
  · exact (htick later 3 2 hlast).trans (by decide)
  · rw [← hafter, hstops _ hquiet]
    decide

end Console

end ChipEight
