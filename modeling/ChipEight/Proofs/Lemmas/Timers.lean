import ChipEight.Proofs.Lemmas.Turns

/-!
# Instructions and timers

Three instructions read or set a timer. A step of any other does the same whatever the timers are, and leaves them alone
(`Session.step_withTimers`). What is told is split into what the speaker is asked for and everything else; two of the
instructions ask the speaker for something.
-/

namespace ChipEight

variable {σ : Type}

/-- Whether an instruction may ask the speaker for something. -/
def Instruction.sounds : Instruction → Bool
  | .setSound _ | .setPitch _ => true
  | _ => false

namespace Effect

/-- What an effect asks the speaker for. -/
def speakerCall? : Effect → Option SpeakerCall
  | .speaker call => some call
  | _ => none

/-- What the speaker is asked for, in order. -/
def calls (told : List Effect) : List SpeakerCall := told.filterMap speakerCall?

/-- What is told beside that, in order: to the observer, to the log, and that the keypad was looked at. -/
def others (told : List Effect) : List Effect := told.filter fun e => e.speakerCall?.isNone

@[simp] theorem calls_append (told more : List Effect) : calls (told ++ more) = calls told ++ calls more :=
  List.filterMap_append

@[simp] theorem others_append (told more : List Effect) : others (told ++ more) = others told ++ others more :=
  List.filter_append told more

@[simp] theorem others_map_speaker (calls : List SpeakerCall) : others (calls.map .speaker) = [] := by
  simp [others, speakerCall?]

theorem mem_others_iff {told : List Effect} {e : Effect} : e ∈ others told ↔ e ∈ told ∧ e.speakerCall? = none := by
  simp [others]

end Effect

theorem Instruction.calls_tells {i : Instruction} (hi : i.sounds = false) (r : Registers) (t : Timers) (address : UInt16) :
    Effect.calls (i.tells r t address) = [] := by
  cases i with
  | setSound | setPitch => cases hi
  | _ => rfl

/-- The session with other timers. -/
def Session.withTimers (s : Session σ) (t : Timers) : Session σ := { s with timers := t }

namespace Session

variable [Surface σ]

/-- Executing an instruction that does not ask the speaker for something does not ask the speaker for anything. -/
theorem calls_execute {i : Instruction} (hi : i.sounds = false) (s : Session σ) (address : UInt16)
    (latched : Option Keypress) : Effect.calls (s.execute address latched i).effects = [] := by
  rw [effects_execute, Instruction.calls_tells hi]

omit [Surface σ] in
/-- A session is alike with itself at other timers. -/
theorem alike_withTimers (s : Session σ) (t : Timers) : s.Alike Eq (s.withTimers t) := ⟨rfl, rfl, rfl, rfl, rfl, rfl⟩

/-- A step that executes nothing that uses the timers leaves them alone. -/
theorem timers_step_of_executesNo {s : Session σ} (h : s.ExecutesNo Instruction.usesTimers) (latched : Option Keypress) :
    (s.step latched).1.timers = s.timers := by
  cases ht : s.turn? latched with
  | none => exact (step_of_turn?_eq_none ht).2
  | some turn =>
    obtain ⟨op, i, hr, hf, hd, rfl⟩ := turn?_eq_some_iff.mp ht
    exact (step_of_turn? ht).2.trans (Instruction.timersAfter_of_not_usesTimers (h op i hr hf hd) _ _)

/-- A step that executes nothing that uses the timers does the same whatever the timers are, and leaves them alone. -/
theorem step_withTimers {s : Session σ} (h : s.ExecutesNo Instruction.usesTimers) (t : Timers) (latched : Option Keypress) :
    (s.withTimers t).step latched = ((s.step latched).1.withTimers t, (s.step latched).2) ∧
      (s.step latched).1.timers = s.timers := by
  have hother : (s.withTimers t).ExecutesNo Instruction.usesTimers := h
  have hdialect : s.ExecutesNo (Instruction.distinguishes s.dialect (s.withTimers t).dialect) :=
    fun _ i _ _ _ => i.distinguishes_self s.dialect
  obtain ⟨halike, htold⟩ := alike_step (Surface.indistinct_eq σ) (s.alike_withTimers t) (.inr h) hdialect latched
  have hsession : ((s.step latched).1.withTimers t).Alike Eq ((s.withTimers t).step latched).1 := { halike with }
  refine ⟨Prod.ext ?_ htold.symm, timers_step_of_executesNo h latched⟩
  refine (hsession.eq ?_ ?_).symm
  · exact (timers_step_of_executesNo hother latched).symm
  · exact (dialect_step s latched).trans (dialect_step (s.withTimers t) latched).symm

/-- A step that executes nothing that sounds asks the speaker for nothing. -/
theorem calls_step {s : Session σ} (h : s.ExecutesNo Instruction.sounds) (latched : Option Keypress) :
    Effect.calls (s.step latched).2 = [] := by
  cases ht : s.turn? latched with
  | none =>
    rw [(step_of_turn?_eq_none ht).1]
    rfl
  | some turn =>
    have htold := (step_of_turn? ht).1
    obtain ⟨op, i, hr, hf, hd, rfl⟩ := turn?_eq_some_iff.mp ht
    rw [htold, Effect.calls_append, Instruction.calls_tells (h op i hr hf hd)]
    rfl

end Session

end ChipEight
