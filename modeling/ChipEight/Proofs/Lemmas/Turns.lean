import ChipEight.Proofs.Lemmas.Alike
import ChipEight.Proofs.Reachable

/-!
# Turns

A turn is a step that executes an instruction. A step of a running session is a turn if a word can be fetched and is an instruction
(`Session.turn?_eq_some_iff`). A turn tells what its instruction tells, and then that it was executed; a step that is no turn tells
nothing and leaves the timers alone. The turns of a history are listed in `Session.turns`, and those of a console in
`Console.turns`: what a console does to its session is fixed by what the keypad answers (`Console.answered`).
-/

namespace ChipEight

variable {σ κ : Type}

/-- The address that an instruction says it is about to use, if it says so: the target of a jump, a call or an index, and of an
indirect jump the target and V0 together. -/
def Instruction.entryPoint? (r : Registers) : Instruction → Option UInt16
  | .jump target | .call target | .setIndex target => some target
  | .jumpIndirect target => some (target + (r.get firstRegister).toUInt16)
  | _ => none

namespace Effect

/-- Whether an observer is told of an effect. -/
def isObserved : Effect → Bool
  | .entryPoint _ | .executed _ => true
  | _ => false

/-- What an observer is told, in order. -/
def observed (told : List Effect) : List Effect := told.filter isObserved

theorem mem_observed_iff {e : Effect} {told : List Effect} : e ∈ observed told ↔ e ∈ told ∧ e.isObserved = true := List.mem_filter

@[simp] theorem observed_append (told more : List Effect) : observed (told ++ more) = observed told ++ observed more :=
  List.filter_append told more

@[simp] theorem observed_map_speaker (calls : List SpeakerCall) : observed (calls.map .speaker) = [] := by
  simp [observed, isObserved]

end Effect

namespace Instruction

/-- What an instruction tells depends on the values of the registers only, not on the program counter. -/
theorem tells_setPc (r : Registers) (pc : UInt16) (t : Timers) (address : UInt16) (i : Instruction) :
    i.tells (r.setPc pc) t address = i.tells r t address := by
  cases i <;> rfl

theorem timersAfter_setPc (r : Registers) (pc : UInt16) (t : Timers) (i : Instruction) :
    i.timersAfter (r.setPc pc) t = i.timersAfter r t := by
  cases i <;> rfl

/-- Of what an instruction tells, an observer hears the address it is about to use. -/
theorem observed_tells (r : Registers) (t : Timers) (address : UInt16) (i : Instruction) :
    Effect.observed (i.tells r t address) = (i.entryPoint? r).toList.map .entryPoint := by
  cases i with
  | setPitch x =>
    show Effect.observed ((Tone.note? (r.get x)).toList.map _) = []
    cases Tone.note? (r.get x) <;> rfl
  | _ => rfl

end Instruction

/-- A step that executes an instruction: the session before it, what the keypad answers, and the word that was fetched with the
instruction it stands for. -/
structure Turn (σ : Type) where
  before : Session σ
  look : Option Keypress
  opcode : Opcode
  instruction : Instruction

namespace Turn

/-- The address that is told before the instruction is executed, if there is one. -/
def entryPoint? (t : Turn σ) : Option UInt16 := t.instruction.entryPoint? t.before.registers

variable [Surface σ]

/-- The session after the step. -/
def after (t : Turn σ) : Session σ := (t.before.step t.look).1

/-- The instruction as an observer is told of it. -/
def record (t : Turn σ) : StepRecord := ⟨t.before.registers.pc, t.opcode, t.instruction, t.after.registers⟩

/-- What an observer is told of a turn. -/
def observed (t : Turn σ) : List Effect := t.entryPoint?.toList.map .entryPoint ++ [.executed t.record]

end Turn

namespace Session

/-- The turn that a step makes, if it makes one. -/
def turn? (s : Session σ) (look : Option Keypress) : Option (Turn σ) :=
  match s.status, s.fetch with
  | .running, .ok op => (Instruction.decode op).map fun i => ⟨s, look, op, i⟩
  | _, _ => none

/-- A step of a running session is a turn if it fetches a word and the word is an instruction. -/
theorem turn?_eq_some_iff {s : Session σ} {look : Option Keypress} {t : Turn σ} :
    s.turn? look = some t ↔
      ∃ op i, s.status = .running ∧ s.fetch = .ok op ∧ Instruction.decode op = some i ∧ t = ⟨s, look, op, i⟩ := by
  unfold turn?
  constructor
  · intro h
    split at h
    · rename_i op hr hf
      obtain ⟨i, hd, rfl⟩ := Option.map_eq_some_iff.mp h
      exact ⟨op, i, hr, hf, hd, rfl⟩
    · cases h
  · rintro ⟨op, i, hr, hf, hd, rfl⟩
    rw [hr, hf]
    exact Option.map_eq_some_iff.mpr ⟨i, hd, rfl⟩

/-- The turn that an action makes, if it makes one. -/
def turnOf? (s : Session σ) : Action (Option Keypress) → Option (Turn σ)
  | .step look => s.turn? look
  | _ => none

variable [Surface σ]

/-- The turns of a history, in order. -/
def turns (s : Session σ) : List (Action (Option Keypress)) → List (Turn σ)
  | [] => []
  | a :: rest => (s.turnOf? a).toList ++ (s.act a).1.turns rest

theorem after_of_turn? {s : Session σ} {look : Option Keypress} {t : Turn σ} (h : s.turn? look = some t) :
    t.after = (s.step look).1 := by
  obtain ⟨op, i, -, -, -, rfl⟩ := turn?_eq_some_iff.mp h
  rfl

/-- The turns of a history are the one its first action makes and those of the rest. -/
theorem forall_turns_cons {s : Session σ} {a : Action (Option Keypress)} {rest : List (Action (Option Keypress))}
    {p : Turn σ → Prop} :
    (∀ t ∈ s.turns (a :: rest), p t) ↔ (∀ t ∈ s.turnOf? a, p t) ∧ ∀ t ∈ (s.act a).1.turns rest, p t := by
  rw [turns]
  constructor
  · intro h
    exact ⟨fun t ht => h t (List.mem_append_left _ (Option.mem_toList.mpr ht)), fun t ht => h t (List.mem_append_right _ ht)⟩
  · rintro ⟨hfirst, hrest⟩ t ht
    rcases List.mem_append.mp ht with hm | hm
    · exact hfirst t (Option.mem_toList.mp hm)
    · exact hrest t hm

/-- A turn tells what its instruction tells and that it was executed, and changes the timers as its instruction does. -/
theorem step_of_turn? {s : Session σ} {look : Option Keypress} {t : Turn σ} (h : s.turn? look = some t) :
    (s.step look).2 = t.instruction.tells s.registers s.timers s.registers.pc ++ [.executed t.record] ∧
      (s.step look).1.timers = t.instruction.timersAfter s.registers s.timers := by
  obtain ⟨op, i, hr, hf, hd, rfl⟩ := turn?_eq_some_iff.mp h
  have e := step_of_decode hr hf hd look
  have hafter : (s.advance.execute s.registers.pc look i).session.registers = (s.step look).1.registers := by
    rw [e, Execution.registers_closed]
  constructor
  · rw [Turn.record, Turn.after, ← hafter, e, effects_execute, registers_advance, Instruction.tells_setPc]
    rfl
  · rw [e, Execution.timers_closed, timers_execute, registers_advance, Instruction.timersAfter_setPc]
    rfl

/-- A step that is no turn tells nothing and leaves the timers alone. -/
theorem step_of_turn?_eq_none {s : Session σ} {look : Option Keypress} (h : s.turn? look = none) :
    (s.step look).2 = [] ∧ (s.step look).1.timers = s.timers := by
  rcases s.step_cases look with ⟨_, _, e⟩ | ⟨_, _, _, e⟩ | ⟨op, _, _, _, e⟩ | ⟨op, i, hr, hf, hd, _⟩
  · rw [e]
    exact ⟨rfl, rfl⟩
  · rw [e]
    exact ⟨rfl, rfl⟩
  · rw [e]
    exact ⟨rfl, rfl⟩
  · rw [turn?_eq_some_iff.mpr ⟨op, i, hr, hf, hd, rfl⟩] at h
    cases h

/-- The timers after a step are those after the instruction it executes. -/
theorem timers_step (s : Session σ) (look : Option Keypress) :
    (s.step look).1.timers =
      ((s.turn? look).map Turn.instruction).elim s.timers fun i => i.timersAfter s.registers s.timers := by
  cases h : s.turn? look with
  | none => exact (step_of_turn?_eq_none h).2
  | some t => exact (step_of_turn? h).2

/-- An observer is told of a step what it is told of the turn that the step makes. -/
theorem observed_step (s : Session σ) (look : Option Keypress) :
    Effect.observed (s.step look).2 = (s.turn? look).toList.flatMap Turn.observed := by
  cases h : s.turn? look with
  | none =>
    rw [(step_of_turn?_eq_none h).1]
    rfl
  | some t =>
    obtain ⟨op, i, -, -, -, rfl⟩ := turn?_eq_some_iff.mp h
    rw [(step_of_turn? h).1, Effect.observed_append, Instruction.observed_tells]
    exact (List.append_nil _).symm

/-- An observer is told of no action but the steps. -/
theorem observed_act (s : Session σ) (a : Action (Option Keypress)) :
    Effect.observed (s.act a).2 = (s.turnOf? a).toList.flatMap Turn.observed := by
  cases a with
  | load | present => rfl
  | step look => exact s.observed_step look
  | tick => exact Effect.observed_map_speaker _
  | poll look =>
    simp only [act, poll, turnOf?]
    split <;> rfl

/-- An observer is told of the turns of a history and of nothing else. -/
theorem observed_actAll (s : Session σ) (actions : List (Action (Option Keypress))) :
    Effect.observed (s.actAll actions).2 = (s.turns actions).flatMap Turn.observed := by
  induction actions generalizing s with
  | nil => rfl
  | cons a rest ih =>
    rw [actAll, turns, List.flatMap_append, Effect.observed_append, observed_act, ih]

/-! ## Sessions side by side -/

section

variable {τ : Type} {R : σ → τ → Prop} {s : Session σ} {t : Session τ}

omit [Surface σ] in
/-- Alike sessions execute the same instruction next. -/
theorem Alike.instruction_turn? (h : s.Alike R t) (look : Option Keypress) :
    (s.turn? look).map Turn.instruction = (t.turn? look).map Turn.instruction := by
  simp only [turn?, h.status, h.fetch]
  split
  · rw [Option.map_map, Option.map_map]
    rfl
  · rfl

omit [Surface σ] in
theorem Alike.load (h : s.Alike R t) (program : List UInt8) (address : UInt16) :
    (s.load program address).2.Alike R (t.load program address).2 := by
  unfold Session.load
  rw [h.memory]
  split
  · exact h
  · exact { h with memory := rfl, registers := congrArg (Registers.setPc · address) h.registers, status := rfl }

omit [Surface σ] in
theorem Alike.poll (h : s.Alike R t) (look : Option Keypress) :
    (s.poll look).1.Alike R (t.poll look).1 ∧ (s.poll look).2 = (t.poll look).2 := by
  unfold Session.poll
  rw [h.status]
  split
  · exact ⟨h, rfl⟩
  · refine ⟨?_, rfl⟩
    dsimp only
    split
    · exact h.halt _
    · exact h

/-- No action changes the dialect. -/
theorem dialect_act (s : Session σ) (a : Action (Option Keypress)) : (s.act a).1.dialect = s.dialect := by
  cases a with
  | load program address =>
    simp only [act, load]
    split <;> rfl
  | step look => exact dialect_step s look
  | poll look =>
    simp only [act, poll]
    split
    · rfl
    · dsimp only
      split <;> rfl
  | _ => rfl

variable [Surface τ]

/-- What is done to alike sessions at the same timers leaves alike sessions at the same timers and tells the same, unless it executes
an instruction that distinguishes their dialects. -/
theorem alike_act (hR : Surface.Indistinct R) (h : s.Alike R t) (htimers : s.timers = t.timers) {a : Action (Option Keypress)}
    (hdialect : ∀ turn ∈ s.turnOf? a, turn.instruction.distinguishes s.dialect t.dialect = false) :
    (s.act a).1.Alike R (t.act a).1 ∧ (s.act a).1.timers = (t.act a).1.timers ∧ (s.act a).2 = (t.act a).2 := by
  cases a with
  | load program address =>
    refine ⟨h.load program address, ?_, rfl⟩
    simp only [act, load, h.memory]
    split <;> exact htimers
  | step look =>
    have hno : s.ExecutesNo (Instruction.distinguishes s.dialect t.dialect) :=
      fun op i hr hf hd => hdialect _ (turn?_eq_some_iff.mpr ⟨op, i, hr, hf, hd, rfl⟩)
    obtain ⟨halike, htold⟩ := alike_step hR h (.inl htimers) hno look
    refine ⟨halike, ?_, htold⟩
    simp only [act, timers_step, h.instruction_turn? look, h.registers, htimers]
  | tick =>
    refine ⟨h.withTimers _ _, ?_, ?_⟩
    · simp only [act, tick, htimers]
    · simp only [act, tick, htimers]
  | poll look =>
    obtain ⟨halike, htold⟩ := h.poll look
    refine ⟨halike, ?_, htold⟩
    simp only [act, poll, h.status]
    split
    · exact htimers
    · dsimp only
      split <;> exact htimers
  | present => exact ⟨{ h with surface := hR.present h.surface }, htimers, rfl⟩

end

end Session

/-! ## Consoles -/

/-- The tracer after it saw some effects in order. -/
def Tracer.seeAll (t : Tracer) (effects : List Effect) : Tracer := effects.foldl (fun t e => (t.see e).1) t

namespace Console

theorem told_foldl_hear (c : Console σ κ) (effects : List Effect) :
    (effects.foldl hear c).told = effects.reverse ++ c.told := by
  induction effects generalizing c with
  | nil => rfl
  | cons e rest ih =>
    rw [List.foldl_cons, ih, List.reverse_cons, List.append_assoc]
    rfl

/-- A tracer sees every effect in order. -/
theorem tracer_foldl_hear (c : Console σ κ) (effects : List Effect) :
    (effects.foldl hear c).tracer = c.tracer.map fun t => t.seeAll effects := by
  induction effects generalizing c with
  | nil => exact Option.map_id'.symm
  | cons e rest ih =>
    rw [List.foldl_cons, ih]
    show Option.map _ (Option.map _ (Option.map _ c.tracer)) = _
    rw [Option.map_map, Option.map_map]
    rfl

variable [Surface σ] [Keypad κ]

/-- What is done to the session when a history is done to a console. -/
def answered (c : Console σ κ) : List (Action Nat) → List (Action (Option Keypress))
  | [] => []
  | a :: rest => c.answer a :: (c.act a).answered rest

/-- The turns of a history of a console, in order. -/
def turns (c : Console σ κ) (actions : List (Action Nat)) : List (Turn σ) := c.session.turns (c.answered actions)

theorem turns_cons (c : Console σ κ) (a : Action Nat) (rest : List (Action Nat)) :
    c.turns (a :: rest) = (c.session.turnOf? (c.answer a)).toList ++ (c.act a).turns rest := by
  unfold turns
  rw [session_act]
  rfl

/-- A console notes down what its session tells. -/
theorem told_act (c : Console σ κ) (a : Action Nat) : (c.act a).told = (c.session.act (c.answer a)).2.reverse ++ c.told := by
  rw [act_eq]
  exact told_foldl_hear _ _

/-- A tracer sees what the session tells. -/
theorem tracer_act (c : Console σ κ) (a : Action Nat) :
    (c.act a).tracer = c.tracer.map fun t => t.seeAll (c.session.act (c.answer a)).2 := by
  rw [act_eq]
  exact tracer_foldl_hear _ _

/-- What is done to a console is done to its session, and what the session tells is noted down, whatever the devices are. -/
theorem actAll_answered (c : Console σ κ) (actions : List (Action Nat)) :
    (c.actAll actions).session = (c.session.actAll (c.answered actions)).1 ∧
      (c.actAll actions).told = (c.session.actAll (c.answered actions)).2.reverse ++ c.told := by
  induction actions generalizing c with
  | nil => exact ⟨rfl, rfl⟩
  | cons a rest ih =>
    obtain ⟨hsession, htold⟩ := ih (c.act a)
    rw [session_act] at hsession htold
    refine ⟨hsession, ?_⟩
    show ((c.act a).actAll rest).told = _
    rw [htold, told_act, answered, Session.actAll, List.reverse_append, List.append_assoc]

end Console

end ChipEight
