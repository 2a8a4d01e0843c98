import ChipEight.Proofs.Lemmas.Timers
import ChipEight.Proofs.Lemmas.Writes
import ChipEight.Screen.Framebuffer

/-!
# Where the choices of a dialect show

Two sessions that differ in their dialects only do the same until one executes an instruction that depends on a choice which the two
dialects make differently (`Session.act_withDialect`). What that instruction leaves differs in little: after a shift in its
destination and VF, after a run of bytes in the index, and after a sprite of height 0 in the surface, VF and whether the sixteen rows
fit into memory (`Session.Apart`).
-/

namespace ChipEight

variable {σ κ : Type}

/-- That the choice an instruction depends on may show in a register: in the destination and the flag of a shift, and in the flag of
a sprite. -/
def Instruction.showsIn (r : Register) : Instruction → Prop
  | .operate .shiftRight x _ | .operate .shiftLeft x _ => r = x ∨ r = flagRegister
  | .draw _ _ _ => r = flagRegister
  | _ => False

/-- The session in another dialect. -/
def Session.withDialect (s : Session σ) (d : Dialect) : Session σ := { s with dialect := d }

/-- The console with its session in another dialect. -/
def Console.withDialect (c : Console σ κ) (d : Dialect) : Console σ κ := { c with session := c.session.withDialect d }

/-- What an instruction may leave different in two sessions that differed in their dialects only. -/
structure Session.Apart (i : Instruction) (s t : Session σ) : Prop where
  memory : s.memory = t.memory
  stack : s.stack = t.stack
  timers : s.timers = t.timers
  random : s.random = t.random
  pc : s.registers.pc = t.registers.pc
  get : ∀ r, ¬i.showsIn r → s.registers.get r = t.registers.get r
  index : i.choice? ≠ some .index → s.registers.index = t.registers.index
  surface : i.choice? ≠ some .height → s.surface = t.surface
  status : s.status = t.status ∨ i.choice? = some .height ∧
    (s.status = .running ∧ t.status = .halted (.fault (.outOfRange 0x10000)) ∨
      s.status = .halted (.fault (.outOfRange 0x10000)) ∧ t.status = .running)

/-- The registers a run of bytes has moved the index of are otherwise the same. -/
theorem Transfer.get_advance (d : Dialect) (r : Registers) (count : Nat) (x : Register) :
    (advance d r count).get x = r.get x := by
  unfold advance
  split <;> rfl

namespace Session

variable {s t : Session σ} {i : Instruction}

theorem Apart.halt (h : Apart i s t) (reason : HaltReason) : Apart i (s.halt reason) (t.halt reason) :=
  { h with status := Or.inl rfl }

/-- Sessions in two dialects have not come apart. -/
theorem apart_withDialect (i : Instruction) (s : Session σ) (d : Dialect) : Apart i s (s.withDialect d) :=
  ⟨rfl, rfl, rfl, rfl, rfl, fun _ _ => rfl, fun _ => rfl, fun _ => rfl, Or.inl rfl⟩

/-! ## One instruction -/

/-- A shift in two dialects. -/
theorem apart_operate {op : Operation} {x y : Register} (hop : op = .shiftRight ∨ op = .shiftLeft) (s : Session σ) (d : Dialect) :
    Apart (.operate op x y) (s.withRegisters (s.registers.operate s.dialect op x y))
      ((s.withDialect d).withRegisters (s.registers.operate d op x y)) := by
  have hget (d' : Dialect) (r : Register) (h : ¬(Instruction.operate op x y).showsIn r) :
      (s.registers.operate d' op x y).get r = s.registers.get r := by
    have hne : ¬(r = x ∨ r = flagRegister) := by
      rcases hop with rfl | rfl
      · exact h
      · exact h
    exact Registers.get_operate_of_ne _ y (fun e => hne (Or.inl e)) fun _ e => hne (Or.inr e)
  refine { apart_withDialect (.operate op x y) s d with pc := ?_, get := ?_, index := fun _ => ?_ }
  · exact (Registers.pc_operate _ _ _ _ _).trans (Registers.pc_operate _ _ _ _ _).symm
  · exact fun r h => (hget _ r h).trans (hget _ r h).symm
  · exact (Registers.index_operate _ _ _ _ _).trans (Registers.index_operate _ _ _ _ _).symm

/-- A run of bytes in two dialects. -/
theorem apart_advance (hi : i.choice? = some .index) (s : Session σ) (d : Dialect) (m : Memory) (r : Registers) (count : Nat) :
    Apart i { s with memory := m, registers := Transfer.advance s.dialect r count }
      { s.withDialect d with memory := m, registers := Transfer.advance d r count } := by
  refine { apart_withDialect i s d with memory := rfl, pc := ?_, get := fun x _ => ?_, index := fun h => absurd hi h }
  · exact (Transfer.pc_advance _ _ _).trans (Transfer.pc_advance _ _ _).symm
  · exact (Transfer.get_advance _ _ _ _).trans (Transfer.get_advance _ _ _ _).symm

/-- A run of bytes that was cut short, in two dialects. -/
theorem apart_withMemory (i : Instruction) (s : Session σ) (d : Dialect) (m : Memory) (r : Registers) :
    Apart i { s with memory := m, registers := r } { s.withDialect d with memory := m, registers := r } :=
  { apart_withDialect i s d with memory := rfl, pc := rfl, get := fun _ _ => rfl, index := fun _ => rfl }

variable [Surface σ]

/-- A sprite changes the flag and the surface, and may end the session because its rows pass the end of memory. -/
theorem closed_draw (s : Session σ) (hr : s.status = .running) (address : UInt16) (look : Option Keypress) (x y : Register)
    (n : UInt8) :
    ∃ flag surface status, (s.execute address look (.draw x y n)).closed =
        { s with registers := s.registers.setFlag flag, surface := surface, status := status } ∧
      (status = .running ∨ status = .halted (.fault (.outOfRange 0x10000))) := by
  simp only [execute, Sprite.draw, Memory.read_eq, max_index_size]
  split
  · rename_i r surface h
    split at h
    · cases h
    · cases h
      rw [Registers.setFlag_setFlag]
      exact ⟨_, _, s.status, rfl, Or.inl hr⟩
  · rename_i r f h
    split at h
    · rename_i hread
      cases h
      split at hread
      · cases hread
      · cases hread
        exact ⟨false, s.surface, _, rfl, Or.inr rfl⟩
    · cases h

/-- A sprite of height 0 in two dialects. -/
theorem apart_draw {x y : Register} {n : UInt8} (hn : (Instruction.draw x y n).choice? = some .height) (s : Session σ)
    (hr : s.status = .running) (d : Dialect) (address : UInt16) (look : Option Keypress) :
    Apart (.draw x y n) (s.execute address look (.draw x y n)).closed
      ((s.withDialect d).execute address look (.draw x y n)).closed := by
  obtain ⟨flag, surface, status, e, hstatus⟩ := closed_draw s hr address look x y n
  obtain ⟨flag', surface', status', e', hstatus'⟩ := closed_draw (s.withDialect d) hr address look x y n
  rw [e, e']
  refine { apart_withDialect (.draw x y n) s d with pc := rfl, get := ?_, index := fun _ => rfl, surface := ?_, status := ?_ }
  · intro r hne
    exact (Registers.get_setFlag_of_ne _ _ hne).trans (Registers.get_setFlag_of_ne _ _ hne).symm
  · exact fun h => absurd hn h
  · rcases hstatus with rfl | rfl <;> rcases hstatus' with rfl | rfl
    · exact Or.inl rfl
    · exact Or.inr ⟨hn, Or.inl ⟨rfl, rfl⟩⟩
    · exact Or.inr ⟨hn, Or.inr ⟨rfl, rfl⟩⟩
    · exact Or.inl rfl

/-- An instruction that depends on a choice, in two dialects. -/
theorem apart_execute (hi : i.choice? ≠ none) (s : Session σ) (hr : s.status = .running) (d : Dialect) (address : UInt16)
    (look : Option Keypress) :
    Apart i (s.execute address look i).closed ((s.withDialect d).execute address look i).closed := by
  cases i with
  | operate op x y =>
    cases op with
    | shiftRight => exact apart_operate (.inl rfl) s d
    | shiftLeft => exact apart_operate (.inr rfl) s d
    | _ => exact absurd rfl hi
  | draw x y n =>
    by_cases hn : n = 0
    · exact apart_draw (if_pos hn) s hr d address look
    · exact absurd (if_neg hn) hi
  | decimal x =>
    simp only [execute, withDialect, Transfer.storeDecimal]
    cases s.memory.write s.registers.index.toNat (Transfer.decimalDigits (s.registers.get x)) with
    | error f => exact (apart_withDialect _ s d).halt _
    | ok m => exact apart_advance rfl s d m s.registers 3
  | store x =>
    simp only [execute, withDialect, Transfer.store]
    cases Transfer.storeAll s.registers s.memory s.registers.index.toNat (Transfer.registersFrom 0 x) with
    | mk m f =>
      cases f with
      | none => exact apart_advance rfl s d m s.registers _
      | some f => exact (apart_withMemory _ s d m s.registers).halt _
  | restore x =>
    simp only [execute, withDialect, Transfer.restore]
    cases Transfer.restoreAll s.memory s.registers s.registers.index.toNat (Transfer.registersFrom 0 x) with
    | mk r f =>
      cases f with
      | none => exact apart_advance rfl s d s.memory r _
      | some f => exact (apart_withMemory _ s d s.memory r).halt _
  | _ => exact absurd rfl hi

omit [Surface σ] in
/-- An instruction that depends on a choice says nothing. -/
theorem tells_of_choice (hi : i.choice? ≠ none) (r : Registers) (p : Timers) (address : UInt16) : i.tells r p address = [] := by
  cases i with
  | operate | draw | decimal | store | restore => rfl
  | _ => exact absurd rfl hi

/-- A turn whose instruction depends on a choice, in two dialects. Both tell no device but the observer. -/
theorem apart_step {look : Option Keypress} {turn : Turn σ} (hturn : s.turn? look = some turn)
    (hi : turn.instruction.choice? ≠ none) (d : Dialect) :
    Apart turn.instruction (s.step look).1 ((s.withDialect d).step look).1 ∧
      ∃ record record', (s.step look).2 = [.executed record] ∧ ((s.withDialect d).step look).2 = [.executed record'] := by
  obtain ⟨op, i, hr, hf, hd, rfl⟩ := turn?_eq_some_iff.mp hturn
  have hturn' : (s.withDialect d).turn? look = some ⟨s.withDialect d, look, op, i⟩ :=
    turn?_eq_some_iff.mpr ⟨op, i, hr, hf, hd, rfl⟩
  have htold := (step_of_turn? hturn).1
  have htold' := (step_of_turn? hturn').1
  rw [tells_of_choice hi] at htold htold'
  refine ⟨?_, _, _, htold, htold'⟩
  rw [step_of_decode hr hf hd, step_of_decode (s := s.withDialect d) hr hf hd]
  exact apart_execute hi s.advance hr d s.registers.pc look

/-! ## Runs -/

omit [Surface σ] in
/-- A session is alike with itself in another dialect. -/
theorem alike_withDialect (s : Session σ) (d : Dialect) : s.Alike Eq (s.withDialect d) := ⟨rfl, rfl, rfl, rfl, rfl, rfl⟩

/-- What is done does the same in another dialect, unless it executes an instruction that distinguishes the two. -/
theorem act_withDialect {a : Action (Option Keypress)} {d : Dialect}
    (h : ∀ turn ∈ s.turnOf? a, turn.instruction.distinguishes s.dialect d = false) :
    (s.withDialect d).act a = ((s.act a).1.withDialect d, (s.act a).2) := by
  obtain ⟨halike, htimers, htold⟩ := alike_act (Surface.indistinct_eq σ) (s.alike_withDialect d) rfl h
  have hsession : ((s.act a).1.withDialect d).Alike Eq ((s.withDialect d).act a).1 := { halike with }
  exact Prod.ext (hsession.eq htimers (dialect_act (s.withDialect d) a).symm).symm htold.symm

end Session

namespace Console

theorem foldl_hear_withDialect (c : Console σ κ) (d : Dialect) (effects : List Effect) :
    effects.foldl hear (c.withDialect d) = (effects.foldl hear c).withDialect d := by
  induction effects generalizing c with
  | nil => rfl
  | cons e rest ih => exact ih (c.hear e)

variable [Surface σ] [Keypad κ]

/-- What is done to a console does the same in another dialect, unless it executes an instruction that distinguishes the two. -/
theorem act_withDialect {c : Console σ κ} {a : Action Nat} {d : Dialect}
    (h : ∀ turn ∈ c.session.turnOf? (c.answer a), turn.instruction.distinguishes c.session.dialect d = false) :
    (c.withDialect d).act a = (c.act a).withDialect d := by
  have hanswer : (c.withDialect d).answer a = c.answer a := by cases a <;> rfl
  have hact : (c.withDialect d).session.act (c.answer a) =
      ((c.session.act (c.answer a)).1.withDialect d, (c.session.act (c.answer a)).2) := Session.act_withDialect h
  have hlooked : (c.withDialect d).looked a = c.looked a := by
    cases a <;> simp only [looked, hanswer, hact] <;> rfl
  rw [act_eq, act_eq, hanswer, hlooked, hact]
  exact foldl_hear_withDialect { c with keypad := c.looked a, session := (c.session.act (c.answer a)).1 } d _

theorem dialect_act (c : Console σ κ) (a : Action Nat) : (c.act a).session.dialect = c.session.dialect := by
  rw [session_act]
  exact Session.dialect_act _ _

/-- A history does the same in another dialect, unless it executes an instruction that distinguishes the two. -/
theorem actAll_withDialect {c : Console σ κ} {actions : List (Action Nat)} {d : Dialect}
    (h : ∀ turn ∈ c.turns actions, turn.instruction.distinguishes c.session.dialect d = false) :
    (c.withDialect d).actAll actions = (c.actAll actions).withDialect d := by
  induction actions generalizing c with
  | nil => rfl
  | cons a rest ih =>
    rw [turns_cons] at h
    have hfirst := act_withDialect fun turn hm => h turn (List.mem_append_left _ (Option.mem_toList.mpr hm))
    have hrest := ih fun turn hm => c.dialect_act a ▸ h turn (List.mem_append_right _ hm)
    show ((c.withDialect d).act a).actAll rest = _
    rw [hfirst, hrest]
    rfl

/-- A turn of a console whose instruction depends on a choice, in two dialects. -/
theorem apart_step {c : Console σ κ} {now : Nat} {turn : Turn σ}
    (hturn : c.session.turn? (Keypad.look c.keypad now).1 = some turn) (hi : turn.instruction.choice? ≠ none) (d : Dialect) :
    Session.Apart turn.instruction (c.step now).session ((c.withDialect d).step now).session ∧
      (c.step now).keypad = ((c.withDialect d).step now).keypad ∧
      Effect.calls (c.step now).told = Effect.calls ((c.withDialect d).step now).told := by
  obtain ⟨hapart, record, record', htold, htold'⟩ := Session.apart_step hturn hi d
  -- a step that tells no more than that it was executed leaves the keypad and the calls as they were
  have key (c : Console σ κ) (r : StepRecord) (h : (c.session.step (Keypad.look c.keypad now).1).2 = [.executed r]) :
      (c.step now).session = (c.session.step (Keypad.look c.keypad now).1).1 ∧ (c.step now).keypad = c.keypad ∧
        Effect.calls (c.step now).told = Effect.calls c.told := by
    refine ⟨session_settle _ _, ?_, ?_⟩
    · rw [step, settle, keypad_foldl_hear, h]
      rfl
    · rw [step, settle, told_foldl_hear, h]
      rfl
  obtain ⟨hsession, hkeypad, hcalls⟩ := key c record htold
  obtain ⟨hsession', hkeypad', hcalls'⟩ := key (c.withDialect d) record' htold'
  rw [hsession, hsession', hkeypad, hkeypad', hcalls, hcalls']
  exact ⟨hapart, rfl, rfl⟩

/-- A dialect shows at its choices only. Two consoles that differ in the dialects of their sessions only stay that way as long as no
instruction is executed that depends on a choice which the dialects make differently. The first such instruction leaves them apart in
little: in the destination and VF of a shift; in the index after a run of bytes, also one that faults; and after a sprite of height 0
in the surface and VF, and in whether its rows passed the end of memory. The keypad was not looked at and the speaker not called. -/
theorem dialects_show_locally (c : Console σ κ) (d : Dialect) (before : List (Action Nat))
    (h : ∀ turn ∈ c.turns before, turn.instruction.distinguishes c.session.dialect d = false) :
    (c.withDialect d).actAll before = (c.actAll before).withDialect d ∧
      ∀ a, ∀ turn ∈ (c.actAll before).turns [a], turn.instruction.distinguishes c.session.dialect d = true →
        Session.Apart turn.instruction (c.actAll (before ++ [a])).session ((c.withDialect d).actAll (before ++ [a])).session ∧
          (c.actAll (before ++ [a])).keypad = ((c.withDialect d).actAll (before ++ [a])).keypad ∧
          Effect.calls (c.actAll (before ++ [a])).told = Effect.calls ((c.withDialect d).actAll (before ++ [a])).told := by
  have hbefore := actAll_withDialect h
  refine ⟨hbefore, fun a turn hm hi => ?_⟩
  have hlast (c : Console σ κ) : c.actAll (before ++ [a]) = (c.actAll before).act a := List.foldl_append
  have hturn : (c.actAll before).session.turnOf? ((c.actAll before).answer a) = some turn := by
    simpa [turns, answered, Session.turns] using hm
  have hchoice : turn.instruction.choice? ≠ none := by
    intro hnone
    rw [Instruction.distinguishes, hnone] at hi
    cases hi
  rw [hlast, hlast, hbefore]
  cases a with
  | step now => exact apart_step hturn hchoice d
  | _ => cases hturn

/-- A console of the standard dialect. -/
def standard : Console (Framebuffer .standard) HeldKey := start .standard (.ofSeed 0) (.blank .standard) ⟨none⟩ .working

/-- A program that sets V0 to 3 and draws a row, up to the shift of V0 that comes next. -/
def upToShift : List (Action Nat) := [.load [0x60, 0x03, 0xd0, 0x01, 0x80, 0x16] 0x200, .step 0, .tick, .step 0, .poll 0]

/-- Up to the shift nothing shows. After it V0 is 1 with the flag set, or the 0 of V1 with the flag as it was. -/
theorem dialects_show_locally_shift :
    (standard.withDialect .cosmac).actAll upToShift = (standard.actAll upToShift).withDialect .cosmac ∧
      Session.Apart (.operate .shiftRight 0 1) (standard.actAll (upToShift ++ [.step 0])).session
        ((standard.withDialect .cosmac).actAll (upToShift ++ [.step 0])).session ∧
      (standard.actAll (upToShift ++ [.step 0])).session.registers.get 0 = 1 ∧
      ((standard.withDialect .cosmac).actAll (upToShift ++ [.step 0])).session.registers.get 0 = 0 := by
  have hsame : ∀ turn ∈ standard.turns upToShift, turn.instruction.distinguishes standard.session.dialect .cosmac = false := by
    decide +kernel
  obtain ⟨hbefore, hapart⟩ := dialects_show_locally standard .cosmac upToShift hsame
  have hnext : ((standard.actAll upToShift).turns [.step 0]).map Turn.instruction = [.operate .shiftRight 0 1] := by
    decide +kernel
  obtain ⟨turn, hm, hi⟩ := List.mem_map.mp (hnext ▸ List.mem_singleton_self (Instruction.operate .shiftRight 0 1))
  have hdiffers : turn.instruction.distinguishes standard.session.dialect .cosmac = true := by
    rw [hi]
    decide +kernel
  refine ⟨hbefore, hi ▸ (hapart _ turn hm hdiffers).1, ?_, ?_⟩
  · decide +kernel
  · decide +kernel

end Console

end ChipEight
