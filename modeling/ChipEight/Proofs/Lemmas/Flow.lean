import ChipEight.Keypad.Gate
import ChipEight.Proofs.Lemmas.Memory

/-!
# Jumps, calls, returns and skips

For each way the flow of control can move: when it succeeds, where it goes, and the fault otherwise. The call stack is seen
through its live frames: a push appends one, a pop removes the last.
-/

namespace ChipEight

namespace CallStack

/-- A push succeeds exactly when there is room. -/
theorem push_eq_error_iff {s : CallStack} {frame caller : UInt16} {f : Fault} :
    s.push frame caller = .error f ↔ s.depth = 16 ∧ f = .stackOverflow caller := by
  have hle : s.depth ≤ 16 := s.depth_le
  have hcap : capacity = 16 := rfl
  unfold push
  split
  · rename_i h
    constructor
    · intro h'
      cases h'
    · intro h'
      exact absurd h'.1 (by omega)
  · rename_i h
    constructor
    · intro h'
      cases h'
      exact ⟨by omega, rfl⟩
    · rintro ⟨-, rfl⟩
      rfl

/-- A push appends a frame. -/
theorem frames_of_push {s t : CallStack} {frame caller : UInt16} (h : s.push frame caller = .ok t) :
    t.frames = s.frames ++ [frame] := by
  unfold push at h
  split at h
  · rename_i hd
    cases h
    have hs : s.depth < s.slots.toList.length := by rw [Vector.length_toList]; exact hd
    simp only [frames, Vector.toList_set, List.take_succ_eq_append_getElem
      (show s.depth < (s.slots.toList.set s.depth frame).length by rw [List.length_set]; exact hs),
      List.take_set_of_le (Nat.le_refl s.depth), List.getElem_set_self]
  · cases h

/-- A pop succeeds exactly when a call is open. -/
theorem pop_eq_error_iff {s : CallStack} {caller : UInt16} {f : Fault} :
    s.pop caller = .error f ↔ s.depth = 0 ∧ f = .stackUnderflow caller := by
  unfold pop
  split
  · rename_i h
    constructor
    · intro h'
      cases h'
    · intro h'
      exact absurd h'.1 (by omega)
  · rename_i h
    constructor
    · intro h'
      cases h'
      exact ⟨by omega, rfl⟩
    · rintro ⟨-, rfl⟩
      rfl

/-- A pop takes the last frame off. -/
theorem frames_of_pop {s t : CallStack} {caller frame : UInt16} (h : s.pop caller = .ok (frame, t)) :
    s.frames = t.frames ++ [frame] := by
  unfold pop at h
  split at h
  · rename_i hd
    cases h
    have hs : s.depth - 1 < s.slots.toList.length := by
      have := s.depth_le
      rw [Vector.length_toList]
      omega
    have key := List.take_succ_eq_append_getElem hs
    rw [Nat.sub_add_cancel hd] at key
    exact key
  · cases h

end CallStack

namespace Flow

/-- A jump goes to an executable address, or nowhere. -/
theorem jump_eq (r : Registers) (address : Nat) :
    jump r address =
      if 0x200 ≤ address ∧ address < 0x1000 then .ok (r.setPc (UInt16.ofNat address)) else .error (.outOfRange address) := by
  simp only [jump, Memory.isExecutable_iff]

/-- Where a jump went is executable. -/
theorem of_jump_eq_ok {r r' : Registers} {address : Nat} (h : jump r address = .ok r') :
    r' = r.setPc (UInt16.ofNat address) ∧ r'.pc.toNat = address ∧ 0x200 ≤ address ∧ address < 0x1000 := by
  rw [jump_eq] at h
  split at h
  · rename_i he
    cases h
    exact ⟨rfl, UInt16.toNat_ofNat_of_lt' (Nat.lt_trans he.2 (by decide)), he⟩
  · cases h

/-- A skip moves like a jump over one instruction, or not at all. -/
theorem of_skipIf_eq_ok {r r' : Registers} {condition : Bool} (h : skipIf r condition = .ok r') :
    r' = r ∨ ∃ address, jump r address = .ok r' := by
  unfold skipIf at h
  split at h
  · exact Or.inr ⟨_, h⟩
  · cases h
    exact Or.inl rfl

/-- A skip whose condition fails does nothing. -/
@[simp] theorem skipIf_false (r : Registers) : skipIf r false = .ok r := rfl

/-- A skip whose condition holds is a jump over one instruction. -/
@[simp] theorem skipIf_true (r : Registers) : skipIf r true = jump r (r.pc.toNat + 2) := rfl

/-- A call pushes the program counter and goes to its target. -/
theorem of_call_eq_ok {r r' : Registers} {s s' : CallStack} {target : UInt16} (h : call r s target = .ok (r', s')) :
    r' = r.setPc target ∧ s'.frames = s.frames ++ [r.pc] ∧ 0x200 ≤ target.toNat ∧ target.toNat < 0x1000 := by
  unfold call at h
  cases hp : s.push r.pc (r.pc - instructionBytes) with
  | error f => simp [hp, bind, Except.bind] at h
  | ok t =>
    simp only [hp, bind, Except.bind] at h
    split at h
    · rename_i he
      cases h
      exact ⟨rfl, CallStack.frames_of_push hp, (Memory.isExecutable_iff _).mp he⟩
    · cases h

/-- A call faults on a full stack, or else on a target that is not executable. -/
theorem call_eq_error_iff {r : Registers} {s : CallStack} {target : UInt16} {f : Fault} :
    call r s target = .error f ↔
      s.depth = 16 ∧ f = .stackOverflow (r.pc - 2) ∨
        s.depth ≠ 16 ∧ ¬(0x200 ≤ target.toNat ∧ target.toNat < 0x1000) ∧ f = .outOfRange target.toNat := by
  unfold call
  cases hp : s.push r.pc (r.pc - instructionBytes) with
  | error g =>
    obtain ⟨hd, rfl⟩ := CallStack.push_eq_error_iff.mp hp
    simp only [bind, Except.bind, Except.error.injEq, hd, ne_eq, not_true_eq_false, false_and, or_false, true_and]
    exact eq_comm
  | ok t =>
    have hd : s.depth ≠ 16 := by
      intro hd
      rw [CallStack.push_eq_error_iff.mpr ⟨hd, rfl⟩] at hp
      cases hp
    simp only [bind, Except.bind, Memory.isExecutable_iff, hd, false_and, false_or, ne_eq, not_false_eq_true, true_and]
    split
    · rename_i he
      simp [he]
    · rename_i he
      simp only [Except.error.injEq, he, not_false_eq_true, true_and]
      exact eq_comm

/-- A return goes to the last frame and takes it off. -/
theorem of_ret_eq_ok {r r' : Registers} {s s' : CallStack} (h : ret r s = .ok (r', s')) :
    ∃ frame, r' = r.setPc frame ∧ s.frames = s'.frames ++ [frame] := by
  unfold ret at h
  cases hp : s.pop (r.pc - instructionBytes) with
  | error f => simp [hp, bind, Except.bind] at h
  | ok p =>
    simp only [hp, bind, Except.bind] at h
    cases h
    exact ⟨p.1, rfl, CallStack.frames_of_pop hp⟩

/-- A return faults when no call is open. -/
theorem ret_eq_error_iff {r : Registers} {s : CallStack} {f : Fault} :
    ret r s = .error f ↔ s.depth = 0 ∧ f = .stackUnderflow (r.pc - 2) := by
  unfold ret
  rw [← show instructionBytes = 2 from rfl, ← CallStack.pop_eq_error_iff]
  cases s.pop (r.pc - instructionBytes) with
  | error g => simp [bind, Except.bind]
  | ok p => simp [bind, Except.bind]

end Flow

end ChipEight
