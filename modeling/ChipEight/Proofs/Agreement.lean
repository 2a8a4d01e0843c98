import ChipEight.Proofs.Halted
import ChipEight.Proofs.Readback
import ChipEight.Proofs.Lemmas.Halts
import ChipEight.Proofs.Lemmas.Turns

/-!
# A listing and a run

A listing takes a program apart before it runs, two bytes at a time from its first one; a session fetches a word wherever its program
counter is, from a memory that the program may have written to. Where the counter stands at a word of the listing and its bytes are still
those that were loaded, the two agree (`Session.listing_foretells_step`).
-/

namespace ChipEight

variable {σ : Type}

/-- The address that an instruction says it is about to use is the one it names, but for an indirect jump. -/
theorem Instruction.target?_of_entryPoint? {r : Registers} {i : Instruction} {a : UInt16} (h : i.entryPoint? r = some a) :
    (∃ target, i = .jumpIndirect target) ∨ i.target? = some a := by
  cases i with
  | jumpIndirect target => exact Or.inl ⟨target, rfl⟩
  | jump | call | setIndex => exact Or.inr h
  | _ => cases h

namespace Session

open Listing

/-! ## The end of the program -/

/-- A program that was loaded fits, and ends behind its last byte. -/
theorem programEnd_load {s : Session σ} {program : List UInt8} {address : UInt16} (h : (s.load program address).1 = none) :
    Memory.Fits program address ∧ (s.load program address).2.memory.programEnd = address.toNat + program.length := by
  have hfits : Memory.Fits program address := by
    by_contra hno
    obtain ⟨f, hf⟩ := s.exists_load_eq hno
    rw [hf] at h
    cases h
  rw [load_of_ok (hfits.load_eq_ok s.memory)]
  exact ⟨hfits, rfl⟩

variable [Surface σ]

theorem programEnd_step (s : Session σ) (look : Option Keypress) : (s.step look).1.memory.programEnd = s.memory.programEnd := by
  rcases s.step_cases look with ⟨_, _, e⟩ | ⟨_, _, _, e⟩ | ⟨_, _, _, _, e⟩ | ⟨_, i, _, _, _, e⟩
  · rw [e]
  · rw [e, memory_halt]
  · rw [e, memory_halt, memory_advance]
  · obtain ⟨haddress, hlength⟩ := program_execute s.advance s.registers.pc look i
    rw [e, Execution.memory_closed, Memory.programEnd, haddress, hlength]
    rfl

/-- The end of the program stays where it is as long as no program is loaded. -/
theorem programEnd_act (s : Session σ) {a : Action (Option Keypress)} (ha : a.revives = false) :
    (s.act a).1.memory.programEnd = s.memory.programEnd := by
  cases a with
  | load program address =>
    obtain ⟨f, hf⟩ := s.exists_load_eq (of_decide_eq_false ha)
    rw [act, hf]
  | step look => exact s.programEnd_step look
  | poll look =>
    simp only [act, poll]
    split
    · rfl
    · split <;> rfl
  | tick | present => rfl

theorem programEnd_actAll (s : Session σ) {actions : List (Action (Option Keypress))} (h : ∀ a ∈ actions, a.revives = false) :
    (s.actAll actions).1.memory.programEnd = s.memory.programEnd := by
  induction actions generalizing s with
  | nil => rfl
  | cons a rest ih =>
    have hrest := ih (s.act a).1 fun b hb => h b (List.mem_cons_of_mem a hb)
    exact hrest.trans (s.programEnd_act (h a List.mem_cons_self))

/-! ## A step on a known word -/

section

variable {s : Session σ} (h : s.InRange) (hr : s.status = .running) {op : Opcode} (hw : s.NextWord op)
include h hr hw

/-- An observer is told of the instruction that comes next, and of nothing if none does. -/
theorem InRange.observed_step_of_nextWord (look : Option Keypress) :
    Effect.observed (s.step look).2 =
      match Instruction.decode op with
      | some i =>
        (i.entryPoint? s.registers).toList.map .entryPoint ++ [.executed ⟨s.registers.pc, op, i, (s.step look).1.registers⟩]
      | none => [] := by
  have hf := h.nextWord_iff.mpr hw
  cases hd : Instruction.decode op with
  | none =>
    rw [step_of_decode_none hr hf hd]
    rfl
  | some i =>
    rw [observed_step, turn?_eq_some_iff.mpr ⟨op, i, hr, hf, hd, rfl⟩]
    exact List.append_nil _

theorem InRange.executed_mem_step_iff (look : Option Keypress) {record : StepRecord} :
    .executed record ∈ (s.step look).2 ↔
      ∃ i, Instruction.decode op = some i ∧ record = ⟨s.registers.pc, op, i, (s.step look).1.registers⟩ := by
  have hmem : .executed record ∈ (s.step look).2 ↔ .executed record ∈ Effect.observed (s.step look).2 :=
    (and_iff_left rfl).symm.trans Effect.mem_observed_iff.symm
  rw [hmem, h.observed_step_of_nextWord hr hw look]
  cases Instruction.decode op <;> simp

theorem InRange.entryPoint_mem_step_iff (look : Option Keypress) {a : UInt16} :
    .entryPoint a ∈ (s.step look).2 ↔ ∃ i, Instruction.decode op = some i ∧ i.entryPoint? s.registers = some a := by
  have hmem : .entryPoint a ∈ (s.step look).2 ↔ .entryPoint a ∈ Effect.observed (s.step look).2 :=
    (and_iff_left rfl).symm.trans Effect.mem_observed_iff.symm
  rw [hmem, h.observed_step_of_nextWord hr hw look]
  cases Instruction.decode op <;> simp

/-- A step halts because of an undefined opcode if the word that comes next is one, and then it names this word and where it is. -/
theorem InRange.step_undefinedOpcode_iff (look : Option Keypress) {word address : UInt16} :
    (s.step look).1.status = .halted (.fault (.undefinedOpcode word address)) ↔
      Instruction.decode op = none ∧ word = op.word ∧ address = s.registers.pc := by
  rw [h.step_eq_halted_iff hr look]
  constructor
  · intro hh
    cases hh with
    | undefinedOpcode hw' hd =>
      rw [hw.2, ← hw'.2]
      exact ⟨hd, rfl, rfl⟩
  · rintro ⟨hd, rfl, rfl⟩
    exact .undefinedOpcode hw hd

end

/-! ## Lines -/

/-- That a running session is about to execute the bytes of a line of the listing of a program, and that they are still in memory as the
program has them. -/
structure AtLine (program : List UInt8) (address : UInt16) (i : Nat) (s : Session σ) : Prop where
  running : s.status = .running
  pc : s.registers.pc.toNat = address.toNat + 2 * i
  high : program[2 * i]? = some (s.memory.peek (address.toNat + 2 * i))
  low : program[2 * i + 1]? = some (s.memory.peek (address.toNat + 2 * i + 1))

/-- What a line of a listing with these labels says of a step. -/
structure Foretells (labels : EntryPoints) (line : List Char) (s : Session σ) (look : Option Keypress) : Prop where
  /-- An instruction of which the observer is told stands at the line: its address, its word, and the instruction itself. -/
  executed : ∀ record, .executed record ∈ (s.step look).2 →
    record.address = s.registers.pc ∧
      Shows line record.address.toNat (Text.hexDigits 4 record.opcode.word.toNat ++ [' ', ' ']) ∧
      Instruction.decode record.opcode = some record.instruction ∧ line.drop 20 = (record.instruction.textWith label).toList
  /-- The observer is told of an instruction unless the line is data. -/
  executes : (∃ record, .executed record ∈ (s.step look).2) ↔ ¬".word".toList <+: line.drop 20
  /-- The line is data if the step halts there because of an undefined opcode. -/
  data : ".word".toList <+: line.drop 20 ↔
    ∃ word, (s.step look).1.status = .halted (.fault (.undefinedOpcode word s.registers.pc))
  /-- The fault names the word and the address of the line. -/
  fault : ∀ word address, (s.step look).1.status = .halted (.fault (.undefinedOpcode word address)) →
    Shows line address.toNat (Text.hexDigits 4 word.toNat ++ [' ', ' ']) ∧
      line.drop 20 = (".word " ++ Text.hexNumber 4 word.toNat).toList
  /-- The address of which the observer is told before a jump, a call or an index instruction is a label, and the line ends with it. -/
  entryPoint : ∀ record a, .executed record ∈ (s.step look).2 → .entryPoint a ∈ (s.step look).2 →
    (∃ target, record.instruction = .jumpIndirect target) ∨ labels.contains a = true ∧ (label a).toList <:+ line

/-- An instruction with a target is written in a listing with the label of the target at its end. -/
theorem suffix_textWith_label {i : Instruction} {t : UInt16} (h : i.target? = some t) :
    (label t).toList <:+ (i.textWith label).toList := by
  obtain ⟨lead, -, hwrite⟩ := Instruction.textWith_of_target? h
  rw [hwrite, String.toList_append]
  exact List.suffix_append _ _

/-- The line of a word that comes next says of the step what there is to say. -/
theorem InRange.foretells {s : Session σ} (h : s.InRange) (hr : s.status = .running) {program : List UInt8} {address : UInt16} {i : Nat}
    {high low : UInt8} (hhigh : program[2 * i]? = some high) (hlow : program[2 * i + 1]? = some low)
    (hw : s.NextWord (.ofBytes high low)) (hpc : addressAt address i = s.registers.pc) (look : Option Keypress) :
    Foretells (targets (lines address program))
      (Line.text (targets (lines address program)) ⟨addressAt address i, .word (.ofBytes high low)⟩).toList s look := by
  obtain ⟨-, haddress, hgap, hcode, htext⟩ :=
    columns_text (targets (lines address program)) ⟨addressAt address i, .word (.ofBytes high low)⟩
  generalize (Line.text (targets (lines address program)) ⟨addressAt address i, .word (.ofBytes high low)⟩).toList = line
    at haddress hgap hcode htext ⊢
  have hshows : Shows line s.registers.pc.toNat (Text.hexDigits 4 (Opcode.ofBytes high low).word.toNat ++ [' ', ' ']) :=
    ⟨hpc ▸ haddress, hgap, hcode⟩
  have hreads : Reads (.ofBytes high low) (line.drop 20) := htext ▸ reads_wordText (.ofBytes high low)
  refine { executed := ?executed, executes := ?executes, data := ?data, fault := ?fault, entryPoint := ?entryPoint }
  case executed =>
    intro record hmem
    obtain ⟨inst, hd, rfl⟩ := (h.executed_mem_step_iff hr hw look).mp hmem
    exact ⟨rfl, hshows, hd, htext.trans (congrArg String.toList (wordText_of_decode hd))⟩
  case executes =>
    rw [hreads.data_iff, ← ne_eq, Option.ne_none_iff_exists']
    constructor
    · rintro ⟨record, hmem⟩
      obtain ⟨inst, hd, -⟩ := (h.executed_mem_step_iff hr hw look).mp hmem
      exact ⟨inst, hd⟩
    · rintro ⟨inst, hd⟩
      exact ⟨_, (h.executed_mem_step_iff hr hw look).mpr ⟨inst, hd, rfl⟩⟩
  case data =>
    rw [hreads.data_iff]
    constructor
    · intro hd
      exact ⟨_, (h.step_undefinedOpcode_iff hr hw look).mpr ⟨hd, rfl, rfl⟩⟩
    · rintro ⟨word, hstatus⟩
      exact ((h.step_undefinedOpcode_iff hr hw look).mp hstatus).1
  case fault =>
    intro word place hstatus
    obtain ⟨hd, rfl, rfl⟩ := (h.step_undefinedOpcode_iff hr hw look).mp hstatus
    exact ⟨hshows, hreads.data hd⟩
  case entryPoint =>
    intro record a hmem htold
    obtain ⟨inst, hd, rfl⟩ := (h.executed_mem_step_iff hr hw look).mp hmem
    obtain ⟨inst', hd', hentry⟩ := (h.entryPoint_mem_step_iff hr hw look).mp htold
    obtain rfl : inst = inst' := Option.some.inj (hd.symm.trans hd')
    rcases Instruction.target?_of_entryPoint? hentry with hindirect | ht
    · exact Or.inl hindirect
    · have hend : (label a).toList <:+ line.drop 20 := by
        rw [htext, Content.text, wordText_of_decode hd]
        exact suffix_textWith_label ht
      exact Or.inr ⟨contains_targets_lines.mpr ⟨i, high, low, inst, hhigh, hlow, hd, ht⟩, hend.trans (List.drop_suffix 20 line)⟩

/-- Static and dynamic decoding agree, for every program that is loaded, wherever it is loaded, and for every run of it: any steps, ticks,
polls, presents and loads that fail, whatever the keypad answers. Whenever the session runs and the program counter is at a word of the
program whose two bytes are still those that were loaded, the line of that word in the listing foretells the next step. -/
theorem listing_foretells_step {s : Session σ} (h : s.Reachable) {program : List UInt8} {address : UInt16}
    (hload : (s.load program address).1 = none) {actions : List (Action (Option Keypress))}
    (hrun : ∀ a ∈ actions, a.revives = false) {i : Nat}
    (hline : ((s.load program address).2.actAll actions).1.AtLine program address i) (look : Option Keypress) :
    ∃ line, (printed (listing program address))[i]? = some line ∧
      Foretells (targets (lines address program)) line ((s.load program address).2.actAll actions).1 look := by
  obtain ⟨-, hend⟩ := programEnd_load hload
  have hrange : ((s.load program address).2.actAll actions).1.InRange := ((h.act (.load program address)).actAll actions).inRange
  rw [← programEnd_actAll _ hrun] at hend
  generalize ((s.load program address).2.actAll actions).1 = now at hend hline hrange ⊢
  obtain ⟨hr, hpc, hhigh, hlow⟩ := hline
  have hinside : 2 * i + 1 < program.length := (List.getElem?_eq_some_iff.mp hlow).1
  have hw : now.NextWord (.ofBytes (now.memory.peek (address.toNat + 2 * i)) (now.memory.peek (address.toNat + 2 * i + 1))) :=
    ⟨by omega, by rw [hpc]⟩
  -- the listing counts addresses around the address space, the program counter is inside the program
  have hplace : addressAt address i = now.registers.pc := by
    apply UInt16.toNat_inj.mp
    rw [toNat_addressAt, hpc]
    exact Nat.mod_eq_of_lt (hpc ▸ now.registers.pc.toNat_lt)
  refine ⟨_, ?_, hrange.foretells hr hhigh hlow hw hplace look⟩
  rw [getElem?_printed, contentAt?_word hhigh hlow]
  rfl

/-- A program that jumps over a word that is no instruction, and then back to it. -/
def detour : List UInt8 := [0x12, 0x04, 0xff, 0xff, 0x12, 0x02]

/-- A session in that program, after some steps. -/
def onDetour (steps : Nat) : Session (Framebuffer .standard) :=
  (((start .standard (.ofSeed 0) (Framebuffer.blank .standard)).1.load detour 0x200).2.actAll (List.replicate steps (.step none))).1

/-- After one step the session stands at the jump back, which is told with its target; after two at the word that is no instruction. -/
theorem listing_foretells_step_detour :
    ((start .standard (.ofSeed 0) (Framebuffer.blank .standard)).1.load detour 0x200).1 = none ∧
      (onDetour 1).AtLine detour 0x200 2 ∧ (onDetour 2).AtLine detour 0x200 1 ∧
      (printed (listing detour 0x200))[2]? = some "L_0204: 0204  1202  jp   L_0202".toList ∧
      (∃ record, .executed record ∈ ((onDetour 1).step none).2 ∧ record.address = 0x204 ∧
        (record.instruction.textWith label).toList = "jp   L_0202".toList) ∧
      (printed (listing detour 0x200))[1]? = some "L_0202: 0202  ffff  .word 0xffff".toList ∧
      ∃ word, ((onDetour 2).step none).1.status = .halted (.fault (.undefinedOpcode word 0x202)) := by
  have hstart : (start .standard (.ofSeed 0) (Framebuffer.blank .standard)).1.Reachable := .start _ _ _
  have hload : ((start .standard (.ofSeed 0) (Framebuffer.blank .standard)).1.load detour 0x200).1 = none := by decide +kernel
  have hjump : (onDetour 1).AtLine detour 0x200 2 :=
    ⟨by decide +kernel, by decide +kernel, by decide +kernel, by decide +kernel⟩
  have hdata : (onDetour 2).AtLine detour 0x200 1 :=
    ⟨by decide +kernel, by decide +kernel, by decide +kernel, by decide +kernel⟩
  have hsecond : (printed (listing detour 0x200))[1]? = some "L_0202: 0202  ffff  .word 0xffff".toList := by decide +kernel
  have hthird : (printed (listing detour 0x200))[2]? = some "L_0204: 0204  1202  jp   L_0202".toList := by decide +kernel
  obtain ⟨line, hline, hsays⟩ : ∃ line, (printed (listing detour 0x200))[2]? = some line ∧
      Foretells (targets (lines 0x200 detour)) line (onDetour 1) none :=
    listing_foretells_step hstart hload (by decide) hjump none
  obtain ⟨line', hline', hsays'⟩ : ∃ line, (printed (listing detour 0x200))[1]? = some line ∧
      Foretells (targets (lines 0x200 detour)) line (onDetour 2) none :=
    listing_foretells_step hstart hload (by decide) hdata none
  obtain rfl := Option.some.inj (hthird.symm.trans hline)
  obtain rfl := Option.some.inj (hsecond.symm.trans hline')
  obtain ⟨record, hmem⟩ := hsays.executes.mpr (by decide)
  obtain ⟨haddress, -, -, htext⟩ := hsays.executed record hmem
  have hplace : (onDetour 1).registers.pc = 0x204 := by decide +kernel
  have hplace' : (onDetour 2).registers.pc = 0x202 := by decide +kernel
  obtain ⟨word, hstatus⟩ := hsays'.data.mp (by decide)
  have hdrop : "L_0204: 0204  1202  jp   L_0202".toList.drop 20 = "jp   L_0202".toList := by decide
  rw [hplace] at haddress
  rw [hplace'] at hstatus
  exact ⟨hload, hjump, hdata, hthird, ⟨record, hmem, haddress, htext.symm.trans hdrop⟩, hsecond, word, hstatus⟩

end Session

end ChipEight
