import ChipEight.Proofs.Lemmas.Flow

/-!
# The call stack as a list

Seen from outside, a call stack is the list of the addresses that were pushed and not yet popped, oldest first, with room for sixteen of
them. Every request comes to the same on the stack and on the list (`CallStack.onFrames_eq`), and so does every sequence of them
(`CallStack.refines_list`). What is left in a slot above the depth is overwritten before it can be seen again.
-/

namespace ChipEight.CallStack

/-! ## Requests -/

/-- One thing asked of a call stack, with the address that a fault is to name. -/
inductive Request where
  | push (frame caller : UInt16)
  | pop (caller : UInt16)
  deriving DecidableEq

/-- What comes back from a request: a pop that succeeds gives a frame, and a push that succeeds gives nothing. -/
abbrev Answer := Except Fault (Option UInt16)

/-- Does one request on a call stack. There is no new stack where a request fails. -/
def serve (s : CallStack) : Request → Answer × CallStack
  | .push frame caller =>
    match s.push frame caller with
    | .ok t => (.ok none, t)
    | .error f => (.error f, s)
  | .pop caller =>
    match s.pop caller with
    | .ok (frame, t) => (.ok (some frame), t)
    | .error f => (.error f, s)

/-- Does one request on a list of at most sixteen addresses, the newest of which is the last. -/
def onFrames (frames : List UInt16) : Request → Answer × List UInt16
  | .push frame caller =>
    if frames.length = 16 then (.error (.stackOverflow caller), frames) else (.ok none, frames ++ [frame])
  | .pop caller =>
    match frames.getLast? with
    | none => (.error (.stackUnderflow caller), frames)
    | some frame => (.ok (some frame), frames.dropLast)

/-- Does one request after the other, and collects what comes back. -/
def inTurn {α : Type} (one : α → Request → Answer × α) (a : α) : List Request → List Answer × α
  | [] => ([], a)
  | q :: rest =>
    let first := one a q
    let others := inTurn one first.2 rest
    (first.1 :: others.1, others.2)

/-! ## One request, and a sequence -/

/-- A request comes to the same on a call stack and on the list of its frames. -/
theorem onFrames_eq (s : CallStack) (q : Request) : onFrames s.frames q = ((s.serve q).1, (s.serve q).2.frames) := by
  cases q with
  | push frame caller =>
    rw [onFrames, serve, length_frames]
    cases hp : s.push frame caller with
    | error f =>
      obtain ⟨hfull, rfl⟩ := push_eq_error_iff.mp hp
      rw [if_pos hfull]
    | ok t =>
      have hroom : s.depth ≠ 16 := by
        intro hfull
        rw [push_eq_error_iff.mpr ⟨hfull, rfl⟩] at hp
        cases hp
      rw [if_neg hroom, frames_of_push hp]
  | pop caller =>
    rw [onFrames, serve]
    cases hp : s.pop caller with
    | error f =>
      obtain ⟨hnone, rfl⟩ := pop_eq_error_iff.mp hp
      have hnil : s.frames = [] := List.eq_nil_of_length_eq_zero (s.length_frames.trans hnone)
      rw [hnil]
      rfl
    | ok p =>
      rw [frames_of_pop hp, List.getLast?_concat, List.dropLast_concat]

/-- A sequence of requests comes to the same on a call stack and on the list of its frames. -/
theorem inTurn_onFrames (s : CallStack) (requests : List Request) :
    inTurn onFrames s.frames requests = ((inTurn serve s requests).1, (inTurn serve s requests).2.frames) := by
  induction requests generalizing s with
  | nil => rfl
  | cons q rest ih =>
    rw [inTurn, inTurn, onFrames_eq, ih]

/-- A request that fails leaves the stack as it is. -/
theorem serve_of_error {s : CallStack} {q : Request} {f : Fault} (h : (s.serve q).1 = .error f) : (s.serve q).2 = s := by
  cases q with
  | push frame caller =>
    rw [serve] at h ⊢
    cases hp : s.push frame caller with
    | error g => rfl
    | ok t =>
      rw [hp] at h
      cases h
  | pop caller =>
    rw [serve] at h ⊢
    cases hp : s.pop caller with
    | error g => rfl
    | ok p =>
      rw [hp] at h
      cases h

/-- A call stack refines a bounded list, for every sequence of requests on a new one. What comes back is what comes back from the list
that starts empty, the live frames are that list, and the depth is its length. A push fails exactly when there are sixteen frames and a
pop exactly when there is none, each with the fault that names its caller; a request that fails changes nothing, and a pop gives the
newest frame and takes it off. What the slots above the depth hold does not matter: stacks with the same frames answer every sequence of
requests in the same way, and have the same frames after it. -/
theorem refines_list :
    (∀ requests : List Request,
      let run := inTurn serve empty requests
      inTurn onFrames [] requests = (run.1, run.2.frames) ∧
      run.2.depth = run.2.frames.length ∧
      (∀ frame caller f, run.2.push frame caller = .error f ↔ run.2.frames.length = 16 ∧ f = .stackOverflow caller) ∧
      (∀ caller f, run.2.pop caller = .error f ↔ run.2.frames.length = 0 ∧ f = .stackUnderflow caller) ∧
      (∀ q f, (run.2.serve q).1 = .error f → (run.2.serve q).2 = run.2) ∧
      (∀ caller frame t, run.2.pop caller = .ok (frame, t) → run.2.frames = t.frames ++ [frame])) ∧
    ∀ s t : CallStack, s.frames = t.frames → ∀ requests : List Request,
      (inTurn serve s requests).1 = (inTurn serve t requests).1 ∧
        (inTurn serve s requests).2.frames = (inTurn serve t requests).2.frames := by
  constructor
  · intro requests run
    refine ⟨?_, (length_frames _).symm, fun frame caller f => ?_, fun caller f => ?_, fun q f => serve_of_error,
      fun caller frame t => frames_of_pop⟩
    · have hrun := inTurn_onFrames empty requests
      rw [frames_empty] at hrun
      exact hrun
    · rw [length_frames]
      exact push_eq_error_iff
    · rw [length_frames]
      exact pop_eq_error_iff
  · intro s t hframes requests
    have hs := inTurn_onFrames s requests
    have ht := inTurn_onFrames t requests
    rw [hframes, ht] at hs
    obtain ⟨hanswers, hafter⟩ := Prod.mk.inj hs
    exact ⟨hanswers.symm, hafter.symm⟩

/-- A stack in which a second call has come back and left its frame in its slot. -/
def returned : CallStack := (inTurn serve empty [.push 0x202 0x200, .push 0x304 0x302, .pop 0x400]).2

/-- A stack in which there never was a second call. -/
def shallow : CallStack := (inTurn serve empty [.push 0x202 0x200]).2

/-- The slots of the two differ, and yet both give the same frames back, and fault at the same pop. -/
theorem refines_list_returned :
    returned.slots ≠ shallow.slots ∧ returned.frames = shallow.frames ∧
      (inTurn serve returned [.push 0x506 0x504, .pop 0, .pop 0, .pop 0x208]).1 =
        (inTurn serve shallow [.push 0x506 0x504, .pop 0, .pop 0, .pop 0x208]).1 ∧
      (inTurn serve shallow [.push 0x506 0x504, .pop 0, .pop 0, .pop 0x208]).1 =
        [.ok none, .ok (some 0x506), .ok (some 0x202), .error (.stackUnderflow 0x208)] := by
  have hframes : returned.frames = shallow.frames := by decide
  exact ⟨by decide, hframes, (refines_list.2 returned shallow hframes _).1, rfl⟩

end ChipEight.CallStack
