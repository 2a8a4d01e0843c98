import ChipEight.Proofs.Guarded.Memory
import ChipEight.Session.Console

/-!
# Loading a program

A program is loaded if its address is executable and the region has room for it from there on (`Memory.Fits`). Then memory holds the
program at its address and is as it was everywhere else, and the session goes on at the start of the program with everything it had
(`Console.load_all_or_nothing`). Otherwise nothing at all has changed. The write inside a load tests its span once more, and that test
never fails.
-/

namespace ChipEight

namespace Memory

/-- That a program has a place in the executable region: its address lies there, and so do all of its bytes. -/
def Fits (program : List UInt8) (address : UInt16) : Prop :=
  0x200 ≤ address.toNat ∧ address.toNat < 0x1000 ∧ program.length ≤ 0x1000 - address.toNat

instance (program : List UInt8) (address : UInt16) : Decidable (Fits program address) :=
  inferInstanceAs (Decidable (_ ∧ _ ∧ _))

/-- A memory into which a program was loaded: the program stands at its address, the memory knows where it starts and ends, and every
other byte is as it was, what an earlier program left and the font included. -/
structure Loaded (m : Memory) (program : List UInt8) (address : UInt16) (after : Memory) : Prop where
  present : ∀ i (h : i < program.length), after.peek (address.toNat + i) = program[i]
  elsewhere : ∀ a, a < address.toNat ∨ address.toNat + program.length ≤ a → after.peek a = m.peek a
  programAddress : after.programAddress = address
  programEnd : after.programEnd = address.toNat + program.length

/-- A program that fits ends inside memory. -/
theorem Fits.span_le {program : List UInt8} {address : UInt16} (h : Fits program address) :
    address.toNat + program.length ≤ size := by
  obtain ⟨-, hlt, hroom⟩ := h
  have hsize : size = 0x10000 := rfl
  omega

/-- The write inside a load finds its span in memory. -/
theorem Fits.write_eq_ok {program : List UInt8} {address : UInt16} (h : Fits program address) (m : Memory) :
    m.write address.toNat program = .ok (m.pokeAll address.toNat program) := by
  rw [write_eq, if_pos h.span_le]

/-- A program that fits is written to its address, and the memory notes down where it is. -/
theorem Fits.load_eq_ok {program : List UInt8} {address : UInt16} (h : Fits program address) (m : Memory) :
    m.load program address =
      .ok { m.pokeAll address.toNat program with programAddress := address, programLength := program.length } := by
  obtain ⟨hge, hlt, hroom⟩ := h
  rw [load_eq, if_pos ⟨hge, hlt⟩, if_pos (by omega)]

/-- What was written to the address of a program that fits is the program, and nothing else has changed. -/
theorem Fits.loaded {program : List UInt8} {address : UInt16} (h : Fits program address) (m : Memory) :
    m.Loaded program address
      { m.pokeAll address.toNat program with programAddress := address, programLength := program.length } where
  present := by
    intro i hi
    have hspan := h.span_le
    exact peek_pokeAll_getElem m hi (by omega)
  elsewhere := by
    intro a ha
    exact peek_pokeAll_of_outside m program.length (Nat.le_refl _) ha
  programAddress := rfl
  programEnd := rfl

/-- A program at an address that is not executable is refused because of the address, however short it is. -/
theorem load_eq_outOfRange (m : Memory) (program : List UInt8) {address : UInt16}
    (h : ¬(0x200 ≤ address.toNat ∧ address.toNat < 0x1000)) :
    m.load program address = .error (.outOfRange address.toNat) := by
  rw [load_eq, if_neg h]

/-- A program that is longer than the room behind its address is refused because of its length. -/
theorem load_eq_programTooLarge (m : Memory) {program : List UInt8} {address : UInt16}
    (h : 0x200 ≤ address.toNat ∧ address.toNat < 0x1000) (hroom : 0x1000 - address.toNat < program.length) :
    m.load program address = .error (.programTooLarge program.length (0x1000 - address.toNat)) := by
  rw [load_eq, if_pos h, if_neg (by omega)]

/-- A program that does not fit is refused. -/
theorem exists_load_eq_error (m : Memory) {program : List UInt8} {address : UInt16} (h : ¬Fits program address) :
    ∃ f, m.load program address = .error f := by
  by_cases he : 0x200 ≤ address.toNat ∧ address.toNat < 0x1000
  · have hroom : 0x1000 - address.toNat < program.length := Nat.not_le.mp fun hle => h ⟨he.1, he.2, hle⟩
    exact ⟨_, load_eq_programTooLarge m he hroom⟩
  · exact ⟨_, load_eq_outOfRange m program he⟩

end Memory

namespace Session

variable {σ : Type}

/-- A session whose memory loads a program goes on at the start of the program. -/
theorem load_of_ok {s : Session σ} {program : List UInt8} {address : UInt16} {m : Memory}
    (h : s.memory.load program address = .ok m) :
    s.load program address =
      (none, { s with memory := m, registers := { s.registers with pc := address }, status := .running }) := by
  rw [load, h]
  rfl

/-- A session whose memory refuses a program is left as it was. -/
theorem load_of_error {s : Session σ} {program : List UInt8} {address : UInt16} {f : Fault}
    (h : s.memory.load program address = .error f) : s.load program address = (some f, s) := by
  rw [load, h]

/-- A program that does not fit is refused, and the session is left as it was. -/
theorem exists_load_eq (s : Session σ) {program : List UInt8} {address : UInt16} (h : ¬Memory.Fits program address) :
    ∃ f, s.load program address = (some f, s) := by
  obtain ⟨f, hf⟩ := s.memory.exists_load_eq_error h
  exact ⟨f, load_of_error hf⟩

end Session

namespace Console

variable {σ κ : Type}

/-- Loading is all or nothing, for any session with any devices, running or halted and whatever was loaded before. It succeeds exactly
when the program fits. Then the memory is loaded, the program counter is at the program and the session runs, and everything else is
kept: the byte registers, the index, the stack, the timers, the surface, the random bytes, and all of the devices. Otherwise the
answer names the address if that is not executable, or else the length and the room there was, and nothing has changed. The test
that the write makes once more cannot fail: behind the other two, the write succeeds. -/
theorem load_all_or_nothing (c : Console σ κ) (program : List UInt8) (address : UInt16) :
    ((c.load program address).1 = none ↔ Memory.Fits program address) ∧
    (Memory.Fits program address →
      ∃ m, c.session.memory.Loaded program address m ∧
        c.load program address = (none, { c with
          session := { c.session with
            memory := m
            registers := { c.session.registers with pc := address }
            status := .running } })) ∧
    (¬(0x200 ≤ address.toNat ∧ address.toNat < 0x1000) →
      c.load program address = (some (.outOfRange address.toNat), c)) ∧
    (0x200 ≤ address.toNat ∧ address.toNat < 0x1000 → 0x1000 - address.toNat < program.length →
      c.load program address = (some (.programTooLarge program.length (0x1000 - address.toNat)), c)) ∧
    (Memory.Fits program address →
      ∃ written, Guarded.write c.session.memory address.toNat program = .ok (.ok written) ∧
        Guarded.load c.session.memory program address =
          .ok (.ok { written with programAddress := address, programLength := program.length })) := by
  have hsuccess (h : Memory.Fits program address) : c.load program address = (none, { c with session := { c.session with
      memory := { c.session.memory.pokeAll address.toNat program with
        programAddress := address, programLength := program.length }
      registers := { c.session.registers with pc := address }
      status := .running } }) := by
    rw [load, Session.load_of_ok (h.load_eq_ok c.session.memory)]
  have hbad (h : ¬(0x200 ≤ address.toNat ∧ address.toNat < 0x1000)) :
      c.load program address = (some (.outOfRange address.toNat), c) := by
    rw [load, Session.load_of_error (Memory.load_eq_outOfRange _ program h)]
  have hlong (h : 0x200 ≤ address.toNat ∧ address.toNat < 0x1000) (hroom : 0x1000 - address.toNat < program.length) :
      c.load program address = (some (.programTooLarge program.length (0x1000 - address.toNat)), c) := by
    rw [load, Session.load_of_error (Memory.load_eq_programTooLarge _ h hroom)]
  refine ⟨⟨?_, ?_⟩, ?_, hbad, hlong, ?_⟩
  · intro hnone
    by_cases he : 0x200 ≤ address.toNat ∧ address.toNat < 0x1000
    · by_cases hroom : 0x1000 - address.toNat < program.length
      · rw [hlong he hroom] at hnone
        cases hnone
      · exact ⟨he.1, he.2, Nat.not_lt.mp hroom⟩
    · rw [hbad he] at hnone
      cases hnone
  · intro h
    rw [hsuccess h]
  · intro h
    exact ⟨_, h.loaded c.session.memory, hsuccess h⟩
  · intro h
    refine ⟨c.session.memory.pokeAll address.toNat program, ?_, ?_⟩
    · rw [Guarded.write_eq, h.write_eq_ok]
    · rw [Guarded.load_eq, h.load_eq_ok]

/-- At the last address of the region there is room for one byte, and at the first one behind it not even for an empty program. -/
example : Memory.Fits [1] 0xfff ∧ ¬Memory.Fits [1, 2] 0xfff ∧ Memory.Fits [] 0xfff ∧ ¬Memory.Fits [] 0x1000 ∧
    ¬Memory.Fits [] 0x1ff := by
  decide

end Console

end ChipEight
