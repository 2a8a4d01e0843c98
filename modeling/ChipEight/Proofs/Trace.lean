import ChipEight.Proofs.Lemmas.Halts
import ChipEight.Proofs.Lemmas.Turns
import ChipEight.Screen.Framebuffer

/-!
# What an observer is told

An observer is told of every executed instruction once, after it, also when it ends the session, and before that of the address that
the instruction is about to use, if it says one. It is told of nothing else. So a tracer has counted the turns of a run, and the
entry points it has collected are those of the turns.
-/

namespace ChipEight

variable {σ κ : Type}

namespace Instruction

/-- The sum that an indirect jump tells is not cut: its target has twelve bits. -/
theorem toNat_indirect {op : Opcode} {target : UInt16} (hd : decode op = some (.jumpIndirect target)) (base : UInt8) :
    (target + base.toUInt16).toNat = target.toNat + base.toNat := by
  have htarget : target.toNat < 0x1000 := target_lt_of_decode hd rfl
  have hbase : base.toNat < 256 := base.toNat_lt
  rw [UInt16.toNat_add, UInt8.toNat_toUInt16]
  omega

end Instruction

namespace Session

variable [Surface σ] {s : Session σ}

/-- An indirect jump goes to the address it has told, or ends the session because that is no place to go to. -/
theorem InRange.step_of_jumpIndirect (h : s.InRange) (hr : s.status = .running) {op : Opcode} {target : UInt16}
    (hw : s.NextWord op) (hd : Instruction.decode op = some (.jumpIndirect target)) (look : Option Keypress) :
    ((s.step look).1.status = .running ∧
        (s.step look).1.registers.pc = target + (s.registers.get firstRegister).toUInt16) ∨
      (s.step look).1.status =
        .halted (.fault (.outOfRange (target + (s.registers.get firstRegister).toUInt16).toNat)) := by
  have haddress := Instruction.toNat_indirect hd (s.registers.get firstRegister)
  generalize ha : target + (s.registers.get firstRegister).toUInt16 = a at haddress ⊢
  have hjump : s.advance.execute s.registers.pc look (.jumpIndirect target) =
      .ofRegisters s.advance [.entryPoint a] (Flow.jump s.advance.registers a.toNat) := by
    rw [haddress, Nat.add_comm, ← ha]
    rfl
  rw [step_of_decode hr (h.nextWord_iff.mpr hw) hd, hjump, Flow.jump_eq]
  split
  · refine Or.inl ⟨hr, ?_⟩
    show UInt16.ofNat a.toNat = a
    exact UInt16.ofNat_toNat
  · exact Or.inr rfl

/-- A step executes nothing when the session has halted before, and when it finds the end of the program or a word that is no
instruction. -/
theorem InRange.turn?_eq_none_iff (h : s.InRange) (look : Option Keypress) :
    s.turn? look = none ↔
      (∃ reason, s.status = .halted reason) ∨ (s.step look).1.status = .halted .endOfProgram ∨
        ∃ word, (s.step look).1.status = .halted (.fault (.undefinedOpcode word s.registers.pc)) := by
  constructor
  · intro hnone
    rcases s.step_cases look with ⟨reason, hh, _⟩ | ⟨reason, _, hf, e⟩ | ⟨op, _, _, _, e⟩ | ⟨op, i, hr, hf, hd, _⟩
    · exact Or.inl ⟨reason, hh⟩
    · obtain ⟨-, rfl⟩ := h.fetch_eq_error_iff.mp hf
      exact Or.inr (Or.inl (e ▸ rfl))
    · exact Or.inr (Or.inr ⟨op.word, e ▸ rfl⟩)
    · rw [turn?_eq_some_iff.mpr ⟨op, i, hr, hf, hd, rfl⟩] at hnone
      cases hnone
  · intro hcases
    rw [Option.eq_none_iff_forall_ne_some]
    intro t ht
    obtain ⟨op, i, hr, hf, hd, -⟩ := turn?_eq_some_iff.mp ht
    have hw : s.NextWord op := h.nextWord_iff.mp hf
    rcases hcases with ⟨reason, hh⟩ | hend | ⟨word, hundefined⟩
    · cases hr.symm.trans hh
    · cases (h.step_eq_halted_iff hr look _).mp hend with
      | endOfProgram hle => exact Nat.not_lt.mpr hle hw.1
    · cases (h.step_eq_halted_iff hr look _).mp hundefined with
      | undefinedOpcode hw' hd' => exact hw'.not_next hd' i ⟨op, hw, hd⟩

/-- An observer hears something of exactly the steps that are turns. -/
theorem observed_step_eq_nil_iff (s : Session σ) (look : Option Keypress) :
    Effect.observed (s.step look).2 = [] ↔ s.turn? look = none := by
  rw [observed_step]
  cases s.turn? look with
  | none => exact ⟨fun _ => rfl, fun _ => rfl⟩
  | some t =>
    constructor
    · intro hnil
      rw [Option.toList_some, List.flatMap_singleton, Turn.observed] at hnil
      exact absurd hnil (List.append_ne_nil_of_right_ne_nil _ (List.cons_ne_nil _ _))
    · intro hnone
      cases hnone

end Session

/-! ## The tracer -/

namespace Tracer

/-- A tracer makes nothing of what an observer is not told. -/
theorem seeAll_observed (t : Tracer) (told : List Effect) : t.seeAll (Effect.observed told) = t.seeAll told := by
  induction told generalizing t with
  | nil => rfl
  | cons e rest ih =>
    show Tracer.seeAll t ((e :: rest).filter Effect.isObserved) = (t.see e).1.seeAll rest
    rw [← ih]
    cases e <;> rfl

theorem seeAll_append (t : Tracer) (told more : List Effect) : t.seeAll (told ++ more) = (t.seeAll told).seeAll more :=
  List.foldl_append

variable [Surface σ]

/-- A tracer counts a turn and collects its entry point. -/
theorem seeAll_turn (t : Tracer) (turn : Turn σ) :
    (t.seeAll turn.observed).steps = t.steps + 1 ∧
      ∀ a, (t.seeAll turn.observed).entryPoints.contains a = true ↔
        t.entryPoints.contains a = true ∨ turn.entryPoint? = some a := by
  unfold Turn.observed
  cases turn.entryPoint? with
  | none =>
    refine ⟨rfl, fun a => ?_⟩
    show t.entryPoints.contains a = true ↔ _
    simp
  | some address =>
    refine ⟨rfl, fun a => ?_⟩
    show (t.entryPoints.insert address).contains a = true ↔ _
    rw [EntryPoints.contains_insert, Bool.or_eq_true, beq_iff_eq, Option.some.injEq]
    constructor
    · rintro (rfl | hold)
      · exact Or.inr rfl
      · exact Or.inl hold
    · rintro (hold | rfl)
      · exact Or.inr hold
      · exact Or.inl rfl

/-- A tracer counts all turns and collects their entry points. -/
theorem seeAll_turns (t : Tracer) (turns : List (Turn σ)) :
    (t.seeAll (turns.flatMap Turn.observed)).steps = t.steps + turns.length ∧
      ∀ a, (t.seeAll (turns.flatMap Turn.observed)).entryPoints.contains a = true ↔
        t.entryPoints.contains a = true ∨ ∃ turn ∈ turns, turn.entryPoint? = some a := by
  induction turns generalizing t with
  | nil =>
    refine ⟨rfl, fun a => ?_⟩
    show t.entryPoints.contains a = true ↔ _
    simp
  | cons turn rest ih =>
    obtain ⟨hsteps, hentries⟩ := t.seeAll_turn turn
    obtain ⟨hrest, hothers⟩ := ih (t.seeAll turn.observed)
    rw [List.flatMap_cons, seeAll_append]
    refine ⟨?_, fun a => ?_⟩
    · rw [hrest, hsteps, List.length_cons, Nat.add_assoc, Nat.add_comm 1]
    · rw [hothers, hentries]
      simp only [List.mem_cons, exists_eq_or_imp, or_assoc]

end Tracer

namespace Console

variable [Surface σ] [Keypad κ]

/-- A tracer sees the turns of a history and nothing else. -/
theorem tracer_actAll (c : Console σ κ) (actions : List (Action Nat)) :
    (c.actAll actions).tracer = c.tracer.map fun t => t.seeAll ((c.turns actions).flatMap Turn.observed) := by
  induction actions generalizing c with
  | nil => exact Option.map_id'.symm
  | cons a rest ih =>
    show ((c.act a).actAll rest).tracer = _
    rw [ih, tracer_act, Option.map_map, turns_cons, List.flatMap_append, ← Session.observed_act]
    refine congrArg (Option.map · c.tracer) (funext fun t => ?_)
    rw [Tracer.seeAll_append, Tracer.seeAll_observed]
    rfl

/-- The trace of a run is complete and faithful. A step of a reachable running session on a word that is an instruction is told of
once, also when it ends the session: where the word stood, the word as it was before, the instruction, and the registers after it;
and before that an address if the instruction is one of the four that say one. All other steps are silent: those of a halted session
and those that find the end of the program or a word that is no instruction. The address that an indirect jump says is the one it
goes to or faults with. Over a run an observer is told of its turns, in order, and of nothing else, so a tracer has counted them and
has collected exactly their addresses. -/
theorem trace_is_complete :
    (∀ s : Session σ, s.Reachable → ∀ look,
      (∀ op i, s.status = .running → s.NextWord op → Instruction.decode op = some i →
        Effect.observed (s.step look).2 =
          (i.entryPoint? s.registers).toList.map .entryPoint ++
            [.executed ⟨s.registers.pc, op, i, (s.step look).1.registers⟩]) ∧
      (Effect.observed (s.step look).2 = [] ↔
        (∃ reason, s.status = .halted reason) ∨ (s.step look).1.status = .halted .endOfProgram ∨
          ∃ word, (s.step look).1.status = .halted (.fault (.undefinedOpcode word s.registers.pc))) ∧
      (∀ target, s.status = .running → s.Next (.jumpIndirect target) → ∀ address,
        (Instruction.jumpIndirect target).entryPoint? s.registers = some address →
        address.toNat = target.toNat + (s.registers.get firstRegister).toNat ∧
          ((s.step look).1.status = .running ∧ (s.step look).1.registers.pc = address ∨
            (s.step look).1.status = .halted (.fault (.outOfRange address.toNat))))) ∧
    (∀ (s : Session σ) actions, Effect.observed (s.actAll actions).2 = (s.turns actions).flatMap Turn.observed) ∧
    (∀ (c : Console σ κ) t, c.tracer = some t → ∀ actions, ∃ t', (c.actAll actions).tracer = some t' ∧
      t'.steps = t.steps + (c.turns actions).length ∧
      ∀ a, t'.entryPoints.contains a = true ↔
        t.entryPoints.contains a = true ∨ ∃ turn ∈ c.turns actions, turn.entryPoint? = some a) := by
  refine ⟨fun s h look => ⟨?_, ?_, ?_⟩, fun s actions => s.observed_actAll actions, ?_⟩
  · intro op i hr hw hd
    have hturn : s.turn? look = some ⟨s, look, op, i⟩ :=
      Session.turn?_eq_some_iff.mpr ⟨op, i, hr, h.inRange.nextWord_iff.mpr hw, hd, rfl⟩
    rw [Session.observed_step, hturn, Option.toList_some, List.flatMap_singleton]
    rfl
  · exact (s.observed_step_eq_nil_iff look).trans (h.inRange.turn?_eq_none_iff look)
  · rintro target hr ⟨op, hw, hd⟩ address haddress
    cases haddress
    exact ⟨Instruction.toNat_indirect hd _, h.inRange.step_of_jumpIndirect hr hw hd look⟩
  · intro c t ht actions
    obtain ⟨hsteps, hentries⟩ := t.seeAll_turns (c.turns actions)
    refine ⟨t.seeAll ((c.turns actions).flatMap Turn.observed), ?_, hsteps, hentries⟩
    rw [tracer_actAll, ht]
    rfl

/-- A program that sets the index to its second instruction, which writes a zero over itself, and then jumps to address 0. -/
def selfWriting : List UInt8 := [0xa2, 0x02, 0xf0, 0x55, 0xb0, 0x00]

/-- A session that is about to execute the second instruction of that program. -/
def atStore : Session (Framebuffer .standard) := ((Session.loaded (.blank .standard) selfWriting 0x200).act (.step none)).1

/-- A console with a tracer that has seen nothing. -/
def traced : Console (Framebuffer .standard) HeldKey := (start .standard (.ofSeed 0) (.blank .standard) ⟨none⟩ .working).observe

/-- The store is told of as the word it was, the jump although it faults, and the step after that is silent. -/
theorem trace_is_complete_selfWriting :
    atStore.Reachable ∧ atStore.NextWord (.ofBytes 0xf0 0x55) ∧ (atStore.step none).1.memory.peek 0x202 = 0 ∧
      Effect.observed (atStore.step none).2 =
        [.executed ⟨0x202, .ofBytes 0xf0 0x55, .store 0, (atStore.step none).1.registers⟩] ∧
      (traced.actAll [.load selfWriting 0x200, .step 0, .step 0, .step 0, .step 0]).session.status =
        .halted (.fault (.outOfRange 0)) ∧
      ∃ t, (traced.actAll [.load selfWriting 0x200, .step 0, .step 0, .step 0, .step 0]).tracer = some t ∧ t.steps = 3 ∧
        ∀ a, t.entryPoints.contains a = true ↔ a = 0x202 ∨ a = 0 := by
  obtain ⟨hstep, -, htracer⟩ := @trace_is_complete (Framebuffer .standard) HeldKey _ _
  have hreach : atStore.Reachable := (Session.reachable_loaded _ _ _).act _
  have hw : atStore.NextWord (.ofBytes 0xf0 0x55) := ⟨by decide +kernel, by decide +kernel⟩
  have hd : Instruction.decode (.ofBytes 0xf0 0x55) = some (.store 0) := by decide +kernel
  have hpc : atStore.registers.pc = 0x202 := by decide +kernel
  have htold := (hstep atStore hreach none).1 _ _ (by decide +kernel) hw hd
  rw [hpc] at htold
  have hpoints : (traced.turns [.load selfWriting 0x200, .step 0, .step 0, .step 0, .step 0]).map Turn.entryPoint? =
      [some 0x202, none, some 0] := by decide +kernel
  obtain ⟨t, ht, hsteps, hentries⟩ := htracer traced .empty rfl [.load selfWriting 0x200, .step 0, .step 0, .step 0, .step 0]
  refine ⟨hreach, hw, by decide +kernel, htold, by decide +kernel, t, ht, ?_, fun a => ?_⟩
  · rw [hsteps, ← List.length_map Turn.entryPoint?, hpoints]
    rfl
  · have hnone : EntryPoints.empty.contains a = false := rfl
    rw [hentries, ← List.mem_map, hpoints]
    simp [Tracer.empty, hnone]

end Console

end ChipEight
