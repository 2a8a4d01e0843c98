import ChipEight.Machine.Arithmetic
import ChipEight.Machine.Flow
import ChipEight.Machine.Timers
import ChipEight.Proofs.Guarded.Basic
import ChipEight.Proofs.Lemmas.Flow

/-!
# Registers, stack, flow and timers with every test made

Register numbers are plain numbers here, and every access tests them. So does every access to a slot of the call stack, and every
sum and difference that is not meant to wrap. None of the tests fails: the numbers are those of registers, and the depth of a
stack is at most sixteen.
-/

namespace ChipEight.Guarded

/-! ## Registers -/

/-- The value of the register with a number. -/
def register (r : Registers) (x : Nat) : Guarded UInt8 := element r.v x

/-- The registers with the one with a number changed. -/
def withRegister (r : Registers) (x : Nat) (value : UInt8) : Guarded Registers := do
  let v ← withElement r.v x value
  return { r with v := v }

/-- The registers with the flag 1 or 0. -/
def withFlag (r : Registers) (flag : Bool) : Guarded Registers := withRegister r 0xf (if flag then 1 else 0)

@[simp] theorem register_val (r : Registers) (x : Register) : register r x.val = .ok (r.get x) := element_eq x.isLt

/-- The first number behind the registers traps. -/
example : register (.start 0x200) 16 = .error (.index 16 16) := rfl

@[simp] theorem withRegister_val (r : Registers) (x : Register) (value : UInt8) :
    withRegister r x.val value = .ok (r.set x value) := by
  rw [withRegister, withElement_eq x.isLt]
  rfl

@[simp] theorem register_zero (r : Registers) : register r 0 = .ok (r.get firstRegister) := register_val r firstRegister

@[simp] theorem withFlag_eq (r : Registers) (flag : Bool) : withFlag r flag = .ok (r.setFlag flag) :=
  withRegister_val r flagRegister _

/-- Vx with something made of it, and a flag. -/
def carrying (r : Registers) (x : Nat) (result : UInt8 → UInt8) (flag : UInt8 → Bool) : Guarded Registers := do
  let a ← register r x
  withFlag (← withRegister r x (result a)) (flag a)

/-- Vx plus a value. -/
def add (r : Registers) (x : Nat) (value : UInt8) : Guarded Registers :=
  carrying r x (· + value) fun a => decide (256 ≤ a.toNat + value.toNat)

/-- Vx with something made of it and a value. -/
def combine (r : Registers) (x : Nat) (result : UInt8 → UInt8) : Guarded Registers := do
  withRegister r x (result (← register r x))

/-- Vx or Vy shifted, as the dialect has it, and the bit that fell out of a shift in place. -/
def shift (r : Registers) (d : Dialect) (x y : Nat) (shifted out : UInt8 → UInt8) : Guarded Registers := do
  if d.shiftsInPlace then
    let a ← register r x
    withRegister (← withRegister r x (shifted a)) 0xf (out a)
  else withRegister r x (shifted (← register r y))

/-- One operation on two registers. -/
def operate (r : Registers) (d : Dialect) (op : Operation) (x y : Nat) : Guarded Registers := do
  let b ← register r y
  match op with
  | .copy => withRegister r x b
  | .or => combine r x (· ||| b)
  | .and => combine r x (· &&& b)
  | .xor => combine r x (· ^^^ b)
  | .add => add r x b
  | .subtract => carrying r x (· - b) fun a => decide (b ≤ a)
  | .reverseSubtract => carrying r x (b - ·) fun a => decide (a ≤ b)
  | .shiftRight => shift r d x y (· >>> 1) (· &&& 1)
  | .shiftLeft => shift r d x y (· <<< 1) (· >>> 7)

@[simp] theorem carrying_val (r : Registers) (x : Register) (result : UInt8 → UInt8) (flag : UInt8 → Bool) :
    carrying r x.val result flag = .ok ((r.set x (result (r.get x))).setFlag (flag (r.get x))) := by
  simp [carrying]

@[simp] theorem combine_val (r : Registers) (x : Register) (result : UInt8 → UInt8) :
    combine r x.val result = .ok (r.set x (result (r.get x))) := by
  simp [combine]

/-- An addition does not trap. -/
@[simp] theorem add_val (r : Registers) (x : Register) (value : UInt8) : add r x.val value = .ok (r.add x value) :=
  carrying_val r x _ _

/-- A shift does not trap. -/
theorem shift_val (r : Registers) (d : Dialect) (x y : Register) (shifted out : UInt8 → UInt8) :
    shift r d x.val y.val shifted out =
      .ok (if d.shiftsInPlace then (r.set x (shifted (r.get x))).set flagRegister (out (r.get x))
        else r.set x (shifted (r.get y))) := by
  unfold shift
  split
  · rw [register_val, ok_bind, withRegister_val, ok_bind]
    exact withRegister_val _ flagRegister _
  · simp

/-- No operation on two registers traps. -/
@[simp] theorem operate_val (r : Registers) (d : Dialect) (op : Operation) (x y : Register) :
    operate r d op x.val y.val = .ok (r.operate d op x y) := by
  rw [operate, register_val, ok_bind]
  cases op with
  | copy => exact withRegister_val r x _
  | or | and | xor => exact combine_val r x _
  | add => exact add_val r x _
  | subtract | reverseSubtract => exact carrying_val r x _ _
  | shiftRight | shiftLeft => exact shift_val r d x y _ _

/-! ## The call stack -/

/-- Opens a call: tests for room, writes the slot at the depth, and moves the depth up. -/
def push (s : CallStack) (frame caller : UInt16) : Guarded (Except Fault CallStack) := do
  if s.isFull then return .error (.stackOverflow caller)
  else if h : s.depth < CallStack.capacity then
    let _ ← sum addressLimit s.depth 1
    return .ok ⟨s.slots.set s.depth frame, s.depth + 1, h⟩
  else .error (.index s.depth CallStack.capacity)

/-- Closes the latest call: tests for a frame, moves the depth down, and reads the slot there. -/
def pop (s : CallStack) (caller : UInt16) : Guarded (Except Fault (UInt16 × CallStack)) := do
  if s.depth = 0 then return .error (.stackUnderflow caller)
  else
    let depth ← difference s.depth 1
    if h : depth < CallStack.capacity then return .ok (s.slots[depth], ⟨s.slots, depth, Nat.le_of_lt h⟩)
    else .error (.index depth CallStack.capacity)

/-- A push does not trap. -/
theorem push_eq (s : CallStack) (frame caller : UInt16) : push s frame caller = .ok (s.push frame caller) := by
  have hle : s.depth ≤ 16 := s.depth_le
  have hcap : CallStack.capacity = 16 := rfl
  have hlimit : addressLimit = 0x10000000000000000 := rfl
  unfold push CallStack.push
  by_cases h : s.depth < CallStack.capacity
  · have hfull : ¬s.isFull = true := by
      rw [CallStack.isFull, beq_iff_eq]
      omega
    rw [if_neg hfull, dif_pos h, dif_pos h, sum_eq (by omega)]
    rfl
  · have hfull : s.isFull = true := by
      rw [CallStack.isFull, beq_iff_eq]
      omega
    rw [if_pos hfull, dif_neg h]
    rfl

/-- A pop does not trap. -/
theorem pop_eq (s : CallStack) (caller : UInt16) : pop s caller = .ok (s.pop caller) := by
  have hle : s.depth ≤ 16 := s.depth_le
  have hcap : CallStack.capacity = 16 := rfl
  unfold pop CallStack.pop
  by_cases h : 0 < s.depth
  · rw [if_neg (by omega), dif_pos h, difference_eq (by omega), ok_bind, dif_pos (by omega)]
    rfl
  · rw [if_pos (by omega), dif_neg h]
    rfl

/-! ## The flow of control -/

/-- Calls the subroutine at an address: room and target are tested first, and the push tests for room once more. -/
def call (r : Registers) (s : CallStack) (target : UInt16) : Guarded (Except Fault (Registers × CallStack)) := do
  let here := r.pc - Flow.instructionBytes
  if s.isFull then return .error (.stackOverflow here)
  else if Memory.isExecutable target.toNat then
    match ← push s r.pc here with
    | .error f => return .error f
    | .ok s => return .ok (r.setPc target, s)
  else return .error (.outOfRange target.toNat)

/-- Returns from the latest call. -/
def ret (r : Registers) (s : CallStack) : Guarded (Except Fault (Registers × CallStack)) := do
  match ← pop s (r.pc - Flow.instructionBytes) with
  | .error f => return .error f
  | .ok (frame, s) => return .ok (r.setPc frame, s)

/-- Steps over the next instruction when a condition holds. -/
def skipIf (r : Registers) (condition : Bool) : Guarded (Except Fault Registers) := do
  if condition then
    let next ← sum addressLimit r.pc.toNat Flow.instructionBytes.toNat
    return Flow.jump r next
  else return .ok r

/-- Goes where an indirect jump goes. -/
def jumpIndirect (r : Registers) (base : UInt8) (offset : UInt16) : Guarded (Except Fault Registers) := do
  let address ← sum addressLimit base.toNat offset.toNat
  return Flow.jump r address

/-- A call does not trap. -/
theorem call_eq (r : Registers) (s : CallStack) (target : UInt16) : call r s target = .ok (Flow.call r s target) := by
  have hcap : CallStack.capacity = 16 := rfl
  unfold call
  by_cases hfull : s.isFull = true
  · have hd : s.depth = 16 := by rwa [CallStack.isFull, beq_iff_eq] at hfull
    rw [if_pos hfull, Flow.call_eq_error_iff.mpr (Or.inl ⟨hd, rfl⟩)]
    rfl
  · have hd : s.depth ≠ 16 := by rwa [CallStack.isFull, beq_iff_eq] at hfull
    rw [if_neg hfull]
    by_cases he : Memory.isExecutable target.toNat = true
    · rw [if_pos he, push_eq, ok_bind]
      unfold Flow.call
      cases s.push r.pc (r.pc - Flow.instructionBytes) with
      | error f => rfl
      | ok t =>
        simp only [bind, Except.bind, if_pos he]
        rfl
    · rw [if_neg he, Flow.call_eq_error_iff.mpr (Or.inr ⟨hd, fun h => he ((Memory.isExecutable_iff _).mpr h), rfl⟩)]
      rfl

/-- A return does not trap. -/
theorem ret_eq (r : Registers) (s : CallStack) : ret r s = .ok (Flow.ret r s) := by
  unfold ret Flow.ret
  rw [pop_eq, ok_bind]
  cases s.pop (r.pc - Flow.instructionBytes) <;> rfl

/-- A skip does not trap. -/
theorem skipIf_eq (r : Registers) (condition : Bool) : skipIf r condition = .ok (Flow.skipIf r condition) := by
  have hpc := r.pc.toNat_lt
  have htwo : Flow.instructionBytes.toNat = 2 := rfl
  have hlimit : addressLimit = 0x10000000000000000 := rfl
  cases condition with
  | false => rfl
  | true =>
    rw [skipIf, if_pos rfl, sum_eq (by omega)]
    rfl

/-- An indirect jump does not trap. -/
theorem jumpIndirect_eq (r : Registers) (base : UInt8) (offset : UInt16) :
    jumpIndirect r base offset = .ok (Flow.jump r (Flow.indirectTarget base offset)) := by
  have hbase := base.toNat_lt
  have hoffset := offset.toNat_lt
  have hlimit : addressLimit = 0x10000000000000000 := rfl
  rw [jumpIndirect, sum_eq (by omega)]
  rfl

/-! ## Timers -/

/-- One tick of a countdown: what is left is taken down by one if it is not zero, and looked at again. -/
def countDown (c : Countdown) : Guarded (Countdown × Bool) := do
  if c.left = 0 then return (c, false)
  else
    let left ← difference c.left.toNat 1
    return (⟨UInt8.ofNat left⟩, decide (left = 0))

/-- One tick of both timers. -/
def tickTimers (t : Timers) : Guarded (Timers × List SpeakerCall) := do
  let delay ← countDown t.delay
  let sound ← countDown t.sound
  return (⟨delay.1, sound.1⟩, if sound.2 then [.stop] else [])

/-- Sets the sound timer. -/
def setSound (t : Timers) (value : UInt8) : Guarded (Timers × SpeakerCall) := do
  if value = 0 then return ({ t with sound := ⟨value⟩ }, .stop)
  else
    let total ← product 0x10000000000000000 value.toNat 1000000
    return ({ t with sound := ⟨value⟩ }, .start (total / 60))

/-- A countdown does not trap. -/
theorem countDown_eq (c : Countdown) : countDown c = .ok c.tick := by
  unfold countDown Countdown.tick
  by_cases h : c.left = 0
  · rw [if_pos h, if_pos h]
    rfl
  · have hpos : 1 ≤ c.left.toNat := Nat.pos_of_ne_zero fun h0 => h (UInt8.toNat_inj.mp h0)
    have hleft : UInt8.ofNat (c.left.toNat - 1) = c.left - 1 := by
      rw [UInt8.ofNat_sub hpos, UInt8.ofNat_toNat]
      rfl
    have hone : c.left.toNat - 1 = 0 ↔ c.left = 1 := by
      rw [← UInt8.toNat_inj, show (1 : UInt8).toNat = 1 from rfl]
      omega
    rw [if_neg h, if_neg h, difference_eq hpos, ok_bind, hleft, decide_eq_decide.mpr hone]
    rfl

/-- A tick does not trap. -/
theorem tickTimers_eq (t : Timers) : tickTimers t = .ok t.tick := by
  rw [tickTimers, countDown_eq, countDown_eq]
  rfl

/-- To set the sound timer does not trap. -/
theorem setSound_eq (t : Timers) (value : UInt8) : setSound t value = .ok (t.setSound value) := by
  have hv := value.toNat_lt
  unfold setSound Timers.setSound
  by_cases h : value = 0
  · rw [if_pos h, if_pos h]
    rfl
  · rw [if_neg h, if_neg h, product_eq (by omega)]
    rfl

end ChipEight.Guarded
