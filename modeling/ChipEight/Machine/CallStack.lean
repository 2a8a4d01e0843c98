import ChipEight.Fault

/-!
# The call stack

Sixteen slots and a depth. The slots below the depth are the live frames, oldest first; what is left in a slot above it has no
meaning. `CallStack.frames` is the view that shows the live frames only.
-/

namespace ChipEight

/-- How many calls can be open at once. -/
def CallStack.capacity : Nat := 16

/-- The return addresses of the open calls. -/
structure CallStack where
  slots : Vector UInt16 CallStack.capacity
  depth : Nat
  depth_le : depth ≤ CallStack.capacity
  deriving DecidableEq

namespace CallStack

/-- No call is open. -/
def empty : CallStack := ⟨Vector.replicate capacity 0, 0, Nat.zero_le _⟩

/-- The live frames, oldest first. -/
def frames (s : CallStack) : List UInt16 := s.slots.toList.take s.depth

/-- Whether another call would overflow. -/
def isFull (s : CallStack) : Bool := s.depth == capacity

/-- Opens a call that returns to `frame`. `caller` only says where an overflow happened. -/
def push (s : CallStack) (frame caller : UInt16) : Except Fault CallStack :=
  if h : s.depth < capacity then .ok ⟨s.slots.set s.depth frame, s.depth + 1, h⟩
  else .error (.stackOverflow caller)

/-- Closes the latest call and gives its frame. `caller` only says where an underflow happened. -/
def pop (s : CallStack) (caller : UInt16) : Except Fault (UInt16 × CallStack) :=
  if h : 0 < s.depth then
    have bound : s.depth - 1 < capacity := by have := s.depth_le; omega
    .ok (s.slots[s.depth - 1], ⟨s.slots, s.depth - 1, Nat.le_of_lt bound⟩)
  else .error (.stackUnderflow caller)

theorem length_frames (s : CallStack) : s.frames.length = s.depth := by
  have := s.depth_le
  simp [frames]
  omega

@[simp] theorem frames_empty : empty.frames = [] := by
  simp [frames, empty]

end CallStack

end ChipEight
