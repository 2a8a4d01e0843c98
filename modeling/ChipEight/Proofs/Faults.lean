import ChipEight.Proofs.Lemmas.Halts
import ChipEight.Screen.Framebuffer

/-!
# What a fault leaves behind

A step that ends in a fault has moved the program counter past the instruction. Almost every fault is found before anything else
is changed. The three exceptions are a sprite, which has cleared the flag, and the two moves of registers, which keep what they
moved before they reached the end of memory (`Session.Residue`).
-/

namespace ChipEight

namespace Transfer

/-- A memory into which the registers up to `x` were stored at the index until memory ended: V0 to V(0xffff - I) are there, and
everything else is as it was. -/
structure StoredToEnd (m : Memory) (r : Registers) (x : Register) (after : Memory) : Prop where
  passes : 0xffff < r.index.toNat + x.val
  stored : ∀ y : Register, r.index.toNat + y.val ≤ 0xffff → after.peek (r.index.toNat + y.val) = r.get y
  below : ∀ address, address < r.index.toNat → after.peek address = m.peek address
  programAddress : after.programAddress = m.programAddress
  programLength : after.programLength = m.programLength

/-- Registers up to `x` of which were restored from the index until memory ended: V0 to V(0xffff - I) are the bytes there, and
everything else is as it was. -/
structure RestoredToEnd (m : Memory) (r : Registers) (x : Register) (after : Registers) : Prop where
  passes : 0xffff < r.index.toNat + x.val
  restored : ∀ y : Register, r.index.toNat + y.val ≤ 0xffff → after.get y = m.peek (r.index.toNat + y.val)
  beyond : ∀ y : Register, 0xffff < r.index.toNat + y.val → after.get y = r.get y
  index : after.index = r.index
  pc : after.pc = r.pc

/-- A register up to `x` is found in the range from V0 to `x` at its own number. -/
theorem getElem_registersFrom_zero {x y : Register} (h : y.val < (registersFrom 0 x).length) :
    (registersFrom 0 x)[y.val] = y :=
  Fin.ext ((val_registersFrom h).trans (Nat.zero_add _))

/-- A store that faults has stored what fits. -/
theorem storedToEnd_of_store {d : Dialect} {m after : Memory} {r : Registers} {x : Register} {f : Fault}
    (h : store d m r 0 x = (after, .error f)) : StoredToEnd m r x after := by
  have hi : r.index.toNat < 0x10000 := r.index.toNat_lt
  have hlen : (registersFrom 0 x).length = x.val + 1 := length_registersFrom 0 x
  rw [store_eq d m r (Fin.zero_le x), Fin.val_zero, Nat.sub_zero] at h
  split at h
  · cases h
  · rename_i hpass
    cases h
    refine ⟨by omega, fun y hy => ?_, fun address ha => ?_, Memory.programAddress_pokeAll _ _ _,
      Memory.programLength_pokeAll _ _ _⟩
    · have hj : y.val < (((registersFrom 0 x).take (0x10000 - r.index.toNat)).map r.get).length := by
        rw [List.length_map, List.length_take, hlen]
        omega
      have hsize : Memory.size = 0x10000 := rfl
      rw [Memory.peek_pokeAll_getElem m hj (by omega), List.getElem_map, List.getElem_take, getElem_registersFrom_zero]
    · exact Memory.peek_pokeAll_of_lt m _ ha

/-- A restore that faults has restored what fits. -/
theorem restoredToEnd_of_restore {d : Dialect} {m : Memory} {r after : Registers} {x : Register} {f : Fault}
    (h : restore d m r 0 x = (after, some f)) : RestoredToEnd m r x after := by
  have hlen : (registersFrom 0 x).length = x.val + 1 := length_registersFrom 0 x
  have hsize : Memory.size = 0x10000 := rfl
  rw [restore_eq d m r (Fin.zero_le x), Fin.val_zero, Nat.sub_zero] at h
  split at h
  · cases h
  · rename_i hpass
    cases h
    obtain ⟨hpc, hindex⟩ := frame_restoreAll m r r.index.toNat (registersFrom 0 x)
    -- a register of the run, by its number
    have key : ∀ y : Register, y.val ≤ x.val →
        (restoreAll m r r.index.toNat (registersFrom 0 x)).1.get y =
          if r.index.toNat + y.val < Memory.size then m.peek (r.index.toNat + y.val) else r.get y := by
      intro y hy
      have hj : y.val < (registersFrom 0 x).length := by omega
      have := get_restoreAll m r r.index.toNat (nodup_registersFrom 0 x) hj
      rwa [getElem_registersFrom_zero hj] at this
    refine ⟨by omega, fun y hy => ?_, fun y hy => ?_, hindex, hpc⟩
    · rw [key y (by omega), if_pos (by omega)]
    · by_cases hx : y.val ≤ x.val
      · rw [key y hx, if_neg (by omega)]
      · exact get_restoreAll_of_not_mem m r _ fun hm => hx (mem_registersFrom.mp hm).2

end Transfer

/-- Whether a fault of an instruction comes before the instruction changes anything. -/
def Instruction.atomic : Instruction → Bool
  | .draw _ _ _ | .store _ | .restore _ => false
  | _ => true

namespace Session

variable {σ : Type}

/-- What a fault leaves of the memory and the registers that the instruction met, where there was an instruction. -/
def Residue (m : Memory) (r : Registers) (m' : Memory) (r' : Registers) : Option Instruction → Prop
  | some (.draw _ _ _) => m' = m ∧ r' = r.setFlag false
  | some (.store x) => Transfer.StoredToEnd m r x m' ∧ r' = r
  | some (.restore x) => m' = m ∧ Transfer.RestoredToEnd m r x r'
  | _ => m' = m ∧ r' = r

/-- A fault of an atomic instruction leaves everything as it was. -/
theorem residue_of_atomic {i : Instruction} (hi : i.atomic = true) (m : Memory) (r : Registers) :
    Residue m r m r (some i) := by
  cases i with
  | draw | store | restore => cases hi
  | _ => exact ⟨rfl, rfl⟩

/-- No residue moves the program counter. -/
theorem Residue.pc_eq {m m' : Memory} {r r' : Registers} {i : Option Instruction} (h : Residue m r m' r' i) : r'.pc = r.pc := by
  unfold Residue at h
  split at h
  · exact h.2 ▸ rfl
  · exact h.2 ▸ rfl
  · exact h.2.pc
  · exact h.2 ▸ rfl

/-- Nothing but the registers and the memory is touched by an execution that comes to a fault, and the speaker is not called. -/
structure Faulted (s : Session σ) (i : Instruction) (e : Execution σ) : Prop where
  session : ∃ m r, e.session = { s with memory := m, registers := r } ∧ Residue s.memory s.registers m r (some i)
  speaker : ∀ call, Effect.speaker call ∉ e.effects

section

variable {s : Session σ} {i : Instruction} {f : Fault}

/-- An instruction that faults before it changes anything has left the session as it was. -/
theorem Faulted.unchanged (hi : i.atomic = true) {effects : List Effect}
    (he : ∀ call, Effect.speaker call ∉ effects) : s.Faulted i (.stop s (.fault f) effects) :=
  ⟨⟨s.memory, s.registers, rfl, residue_of_atomic hi _ _⟩, he⟩

theorem Faulted.ofRegisters (hi : i.atomic = true) {effects : List Effect}
    (he : ∀ call, Effect.speaker call ∉ effects) {e : Except Fault Registers}
    (h : (Execution.ofRegisters s effects e).halt = some (.fault f)) : s.Faulted i (.ofRegisters s effects e) := by
  cases e with
  | ok r => cases h
  | error g => exact Faulted.unchanged hi he

theorem Faulted.ofFlow (hi : i.atomic = true) {effects : List Effect}
    (he : ∀ call, Effect.speaker call ∉ effects) {e : Except Fault (Registers × CallStack)}
    (h : (Execution.ofFlow s effects e).halt = some (.fault f)) : s.Faulted i (.ofFlow s effects e) := by
  cases e with
  | ok p => cases h
  | error g => exact Faulted.unchanged hi he

theorem Faulted.ofGate (hi : i.atomic = true) {e : Except Fault Gate}
    (h : (Execution.ofGate s e).halt = some (.fault f)) : s.Faulted i (.ofGate s e) := by
  rcases e with g | ⟨r⟩ | _
  · exact Faulted.unchanged hi (by simp)
  · cases h
  · cases h

variable [Surface σ]

/-- An execution that comes to a fault leaves only the residue of its instruction. -/
theorem faulted_execute {address : UInt16} {latched : Option Keypress}
    (h : (s.execute address latched i).halt = some (.fault f)) : s.Faulted i (s.execute address latched i) := by
  cases i with
  | ret => exact Faulted.ofFlow rfl (by simp) h
  | call target => exact Faulted.ofFlow rfl (by simp) h
  | jump target => exact Faulted.ofRegisters rfl (by simp) h
  | jumpIndirect target => exact Faulted.ofRegisters rfl (by simp) h
  | skipIfByte x byte => exact Faulted.ofRegisters rfl (by simp) h
  | skipUnlessByte x byte => exact Faulted.ofRegisters rfl (by simp) h
  | skipIfSame x y => exact Faulted.ofRegisters rfl (by simp) h
  | skipUnlessSame x y => exact Faulted.ofRegisters rfl (by simp) h
  | skipIfKey x => exact Faulted.ofGate rfl h
  | skipUnlessKey x => exact Faulted.ofGate rfl h
  | waitKey x => exact Faulted.ofGate rfl h
  | draw x y n =>
    rw [Session.execute] at h ⊢
    unfold Sprite.draw at h ⊢
    cases hm : s.memory.read s.registers.index.toNat (Sprite.rows s.dialect n) with
    | ok bytes =>
      simp only [hm] at h
      cases h
    | error g =>
      exact ⟨⟨s.memory, s.registers.setFlag false, rfl, rfl, rfl⟩, fun _ => List.not_mem_nil⟩
  | decimal x =>
    rw [Session.execute] at h ⊢
    cases hm : Transfer.storeDecimal s.dialect s.memory s.registers (s.registers.get x) with
    | ok p =>
      simp only [hm] at h
      cases h
    | error g => exact Faulted.unchanged rfl (by simp)
  | store x =>
    rw [Session.execute] at h ⊢
    rcases hm : Transfer.store s.dialect s.memory s.registers 0 x with ⟨m, g | r⟩
    · exact ⟨⟨m, s.registers, rfl, Transfer.storedToEnd_of_store hm, rfl⟩, fun _ => List.not_mem_nil⟩
    · simp only [hm] at h
      cases h
  | restore x =>
    rw [Session.execute] at h ⊢
    rcases hm : Transfer.restore s.dialect s.memory s.registers 0 x with ⟨r, _ | g⟩
    · simp only [hm] at h
      cases h
    · exact ⟨⟨s.memory, r, rfl, rfl, Transfer.restoredToEnd_of_restore hm⟩, fun _ => List.not_mem_nil⟩
  | _ => cases h

end

variable [Surface σ]

/-- A step that ends in a fault has moved the program counter past a fetched word and halted the session. Beside that it has
changed nothing but what the residue of the instruction says, and it has not called the speaker. -/
theorem residue_of_fault {s : Session σ} (h : s.Reachable) (hr : s.status = .running) {latched : Option Keypress} {f : Fault}
    (hf : (s.step latched).1.status = .halted (.fault f)) :
    ∃ op m r, s.NextWord op ∧
      (s.step latched).1 = { s with memory := m, registers := r, status := .halted (.fault f) } ∧
      Residue s.memory (s.registers.setPc (s.registers.pc + 2)) m r (Instruction.decode op) ∧
      r.pc.toNat = s.registers.pc.toNat + 2 ∧
      ∀ call, Effect.speaker call ∉ (s.step latched).2 := by
  have hs := h.inRange
  have hpc := hs.toNat_pc_advance
  rcases s.step_cases latched with ⟨_, hh, -⟩ | ⟨reason, -, he, e⟩ | ⟨op, -, ho, hd, e⟩ | ⟨op, i, -, ho, hd, e⟩
  · cases hr.symm.trans hh
  · obtain ⟨-, rfl⟩ := hs.fetch_eq_error_iff.mp he
    rw [e] at hf
    cases hf
  · rw [e, status_halt, Status.halted.injEq] at hf
    rw [e, hf]
    refine ⟨op, s.memory, s.advance.registers, hs.nextWord_iff.mp ho, rfl, ?_, hpc, fun _ => List.not_mem_nil⟩
    rw [hd]
    exact ⟨rfl, rfl⟩
  · have hrun : (s.advance.execute s.registers.pc latched i).session.status = .running :=
      (leaves_execute s.advance s.registers.pc latched i).status.trans hr
    rw [e] at hf ⊢
    have hhalt := (Execution.status_closed_eq_halted_iff hrun).mp hf
    obtain ⟨⟨m, r, hsession, hres⟩, hspeaker⟩ := faulted_execute hhalt
    refine ⟨op, m, r, hs.nextWord_iff.mp ho, ?_, hd ▸ hres, ?_, ?_⟩
    · rw [Execution.closed, hhalt]
      simp only [hsession]
      rfl
    · rw [hres.pc_eq, ← hpc]
    · simp only [List.mem_append, List.mem_singleton, not_or, reduceCtorEq, not_false_eq_true, and_true]
      exact hspeaker

/-! ## A store at the end of memory

No instruction sets the index to an address behind the font. From there it comes to the end of memory by additions.
-/

/-- At the program counter there is a loop of two instructions that adds V0 to the index for ever. -/
structure Climbs (s : Session σ) : Prop where
  running : s.status = .running
  add : s.fetch = .ok (.ofBytes 0xf0 0x1e)
  back : ∃ op, s.advance.fetch = .ok op ∧ Instruction.decode op = some (.jump s.registers.pc)
  executable : Memory.isExecutable s.registers.pc.toNat = true

omit [Surface σ] in
/-- The loop does not look at the index. -/
theorem Climbs.setIndex {s : Session σ} (h : s.Climbs) (index : UInt16) :
    (s.withRegisters (s.registers.setIndex index)).Climbs :=
  ⟨h.running, h.add, h.back, h.executable⟩

/-- One round of the loop. -/
theorem Climbs.round {s : Session σ} (h : s.Climbs) :
    (s.actAll [.step none, .step none]).1 =
      s.withRegisters (s.registers.setIndex (s.registers.index + (s.registers.get 0).toUInt16)) := by
  obtain ⟨op, hback, hd⟩ := h.back
  let added := s.advance.withRegisters (s.advance.registers.setIndex (s.registers.index + (s.registers.get 0).toUInt16))
  have hadd : (s.step none).1 = added := by
    rw [step_of_decode h.running h.add (i := .addIndex 0) rfl]
    rfl
  have hrun : added.status = .running := h.running
  have hfetch : added.fetch = .ok op := hback
  show ((s.step none).1.step none).1 = _
  rw [hadd, step_of_decode hrun hfetch hd]
  show (Execution.ofRegisters added.advance _ (Flow.jump added.advance.registers s.registers.pc.toNat)).closed = _
  rw [Flow.jump, if_pos h.executable, UInt16.ofNat_toNat]
  rfl

/-- Any number of rounds of the loop. -/
theorem Climbs.rounds {s : Session σ} (h : s.Climbs) (n : Nat) :
    (s.actAll (List.replicate n [.step none, .step none]).flatten).1 =
      s.withRegisters (s.registers.setIndex (s.registers.index + UInt16.ofNat n * (s.registers.get 0).toUInt16)) := by
  induction n generalizing s with
  | zero =>
    show s = s.withRegisters (s.registers.setIndex (s.registers.index + 0 * _))
    rw [UInt16.zero_mul, UInt16.add_zero]
    rfl
  | succ n ih =>
    have hsum (v index : UInt16) : index + v + UInt16.ofNat n * v = index + UInt16.ofNat (n + 1) * v := by
      have hone : UInt16.ofNat 1 * v = v := UInt16.one_mul v
      rw [UInt16.ofNat_add, UInt16.add_mul, hone, UInt16.add_assoc, UInt16.add_comm v]
    rw [List.replicate_succ, List.flatten_cons, actAll_append, h.round, ih (h.setIndex _), ← hsum]
    rfl

/-- A session in front of such a loop, with the index 241 rounds before the last byte of memory. -/
def climbing : Session (Framebuffer .standard) :=
  ((loaded (.blank .standard) [0x60, 0xff, 0xaf, 0xf0, 0xf0, 0x1e, 0x12, 0x04] 0x200).actAll [.step none, .step none]).1

theorem climbing_climbs : climbing.Climbs where
  running := by decide +kernel
  add := fetch_eq_ok_iff.mpr ⟨by decide +kernel, by decide +kernel, by decide +kernel⟩
  back :=
    have hfetch := fetch_eq_ok_iff.mpr ⟨by decide +kernel, by decide +kernel, by decide +kernel⟩
    ⟨.ofBytes 0x12 0x04, hfetch, by decide +kernel⟩
  executable := by decide +kernel

/-- A session that is about to store V0 and V1, with the index at the last byte of memory. -/
def storing : Session (Framebuffer .standard) :=
  ((climbing.actAll (List.replicate 241 [.step none, .step none]).flatten).1.act (.load [0xf1, 0x55] 0x200)).1

/-- The loop changes nothing but the index. -/
theorem storing_eq :
    storing = ((climbing.withRegisters (climbing.registers.setIndex 0xffff)).act (.load [0xf1, 0x55] 0x200)).1 := by
  have hindex : climbing.registers.index + UInt16.ofNat 241 * (climbing.registers.get 0).toUInt16 = 0xffff := by decide +kernel
  rw [storing, climbing_climbs.rounds, hindex]

/-- The byte that fits is stored, and the store faults at the other. -/
theorem residue_of_fault_store :
    storing.Reachable ∧ storing.status = .running ∧
      (storing.step none).1.status = .halted (.fault (.outOfRange 0x10000)) ∧
      (storing.step none).1.memory.peek 0xffff = 0xff ∧
      (∀ address, address < 0xffff → (storing.step none).1.memory.peek address = storing.memory.peek address) ∧
      (storing.step none).1.registers = storing.registers.setPc 0x202 ∧
      ∀ call, Effect.speaker call ∉ (storing.step none).2 := by
  have hreach : storing.Reachable := (((reachable_loaded _ _ _).actAll _).actAll _).act _
  have hstate : storing.status = .running ∧ storing.registers = ⟨(Vector.replicate 16 0).set 0 0xff, 0xffff, 0x200⟩ ∧
      Opcode.ofBytes (storing.memory.peek 0x200) (storing.memory.peek 0x201) = .ofBytes 0xf1 0x55 := by
    rw [storing_eq]
    decide +kernel
  have hf : (storing.step none).1.status = .halted (.fault (.outOfRange 0x10000)) := by
    rw [storing_eq]
    decide +kernel
  obtain ⟨hr, hregisters, hword⟩ := hstate
  obtain ⟨op, m, r, ⟨-, hop⟩, e, hres, -, hspeaker⟩ := residue_of_fault hreach hr hf
  rw [hregisters] at hop hres
  have hd : Instruction.decode op = some (.store 1) := by
    rw [hop]
    exact (congrArg Instruction.decode hword).trans rfl
  rw [hd] at hres
  obtain ⟨hstored, rfl⟩ := hres
  refine ⟨hreach, hr, hf, ?_, ?_, ?_, hspeaker⟩
  · rw [e]
    exact hstored.stored 0 (by decide)
  · rw [e]
    exact hstored.below
  · rw [e, hregisters]
    rfl

end Session

end ChipEight
