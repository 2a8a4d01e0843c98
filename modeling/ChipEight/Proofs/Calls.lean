import ChipEight.Proofs.Lemmas.Halts
import ChipEight.Screen.Framebuffer

/-!
# Calls and returns

A call opens a frame, and until a return closes it the frames of the caller stay below it, whatever is done to the session
meanwhile. The return that closes it goes behind the call and leaves the caller its frames. Loads are left out: they keep the
frames, but go to another program.
-/

namespace ChipEight.Session

variable {σ : Type}

/-! ## What one action does to the frames -/

/-- What an action that loads nothing does to the live frames: it keeps them, or it executes a call that opens one behind itself,
or a return that closes the newest one and goes there. -/
inductive FrameStep (s t : Session σ) : Prop where
  | kept (h : t.stack.frames = s.stack.frames)
  | called {target : UInt16} (hn : s.Next (.call target)) (h : t.stack.frames = s.stack.frames ++ [s.registers.pc + 2])
  | returned (hn : s.Next .ret) (h : s.stack.frames = t.stack.frames ++ [t.registers.pc]) (hr : t.status = .running)

variable [Surface σ]

/-- A step changes the frames in one of the three ways. -/
theorem frameStep_step (s : Session σ) (latched : Option Keypress) : s.FrameStep (s.step latched).1 := by
  rcases s.step_cases latched with ⟨_, _, e⟩ | ⟨_, _, _, e⟩ | ⟨op, _, _, _, e⟩ | ⟨op, i, hr, hf, hd, e⟩
  · exact .kept (by rw [e])
  · exact .kept (by rw [e]; rfl)
  · exact .kept (by rw [e]; rfl)
  · have hn := next_of_fetch hf hd
    have hk : (s.step latched).1.stack = (s.advance.execute s.registers.pc latched i).session.stack := by
      rw [e]
      exact Execution.stack_closed _
    cases frameChange_execute s.advance s.registers.pc latched i with
    | kept h => exact .kept (by rw [hk, h]; rfl)
    | opened h => exact .called hn (by rw [hk, h]; rfl)
    | closed h hh =>
      obtain ⟨ht, hrun⟩ := step_eq_of_halt_eq_none hr hf hd hh
      exact .returned hn (by rw [ht]; exact h) hrun

/-- A tick, a poll and a present leave the stack alone. -/
theorem stack_act_of_ne_step (s : Session σ) {a : Action (Option Keypress)} (ha : a.isLoad = false)
    (hs : ∀ look, a ≠ .step look) : (s.act a).1.stack = s.stack := by
  cases a with
  | load program address => cases ha
  | step latched => exact absurd rfl (hs latched)
  | tick => rfl
  | poll latched =>
    simp only [act, poll]
    split
    · rfl
    · split <;> rfl
  | present => rfl

/-- An action that loads nothing changes the frames in one of the three ways. -/
theorem frameStep_act (s : Session σ) {a : Action (Option Keypress)} (ha : a.isLoad = false) : s.FrameStep (s.act a).1 := by
  by_cases hs : ∃ look, a = .step look
  · obtain ⟨look, rfl⟩ := hs
    exact s.frameStep_step look
  · exact .kept (by rw [s.stack_act_of_ne_step ha (not_exists.mp hs)])

/-- A call that does not halt the session has opened its frame. -/
theorem frames_step_of_call {s : Session σ} {target : UInt16} (hn : s.Next (.call target)) {latched : Option Keypress}
    (hs : s.status = .running) (hr : (s.step latched).1.status = .running) :
    (s.step latched).1.stack.frames = s.stack.frames ++ [s.registers.pc + 2] := by
  rcases s.step_cases latched with ⟨_, hh, _⟩ | ⟨_, _, _, e⟩ | ⟨op, _, _, _, e⟩ | ⟨op, i, _, hf, hd, e⟩
  · cases hs.symm.trans hh
  · rw [e] at hr
    cases hr
  · rw [e] at hr
    cases hr
  · cases hn.unique (next_of_fetch hf hd)
    have hh : (s.advance.execute s.registers.pc latched (.call target)).halt = none := by
      rw [e] at hr
      cases hh : (s.advance.execute s.registers.pc latched (.call target)).halt with
      | none => rfl
      | some reason =>
        rw [Execution.closed, hh] at hr
        cases hr
    cases frameChange_execute s.advance s.registers.pc latched (.call target) with
    | kept _ hhalt => exact absurd hh (hhalt rfl)
    | opened h =>
      rw [(step_eq_of_halt_eq_none hs hf hd hh).1, h]
      rfl

/-- A return with an open call goes on. -/
theorem halt_execute_ret (s : Session σ) (address : UInt16) (latched : Option Keypress) (hd : s.stack.depth ≠ 0) :
    (s.execute address latched .ret).halt = none := by
  rw [execute, Execution.halt_ofFlow]
  cases hf : Flow.ret s.registers s.stack with
  | error f => exact absurd (Flow.ret_eq_error_iff.mp hf).1 hd
  | ok p => rfl

/-- A return with an open call closes it. -/
theorem InRange.frames_step_of_ret {s : Session σ} (h : s.InRange) (hs : s.status = .running) (hn : s.Next .ret)
    (hd : s.stack.depth ≠ 0) (latched : Option Keypress) :
    s.stack.frames = (s.step latched).1.stack.frames ++ [(s.step latched).1.registers.pc] ∧
      (s.step latched).1.status = .running := by
  obtain ⟨op, hw, hi⟩ := hn
  have hh := halt_execute_ret s.advance s.registers.pc latched hd
  obtain ⟨e, hrun⟩ := step_eq_of_halt_eq_none hs (h.nextWord_iff.mpr hw) hi hh
  refine ⟨?_, hrun⟩
  cases frameChange_execute s.advance s.registers.pc latched .ret with
  | kept _ hhalt => exact absurd hh (hhalt rfl)
  | closed hf =>
    rw [e]
    exact hf

/-! ## What a run does to the frames -/

omit [Surface σ] in
/-- Frames at the bottom of the stack stay there in an action that leaves the stack as deep as they are. -/
theorem FrameStep.prefix_frames {s t : Session σ} (h : s.FrameStep t) {base : List UInt16} (hb : base <+: s.stack.frames)
    (hd : base.length ≤ t.stack.depth) : base <+: t.stack.frames := by
  cases h with
  | kept h => exact h ▸ hb
  | called _ h => exact h ▸ hb.trans (List.prefix_append _ _)
  | returned _ h =>
    rw [← CallStack.length_frames] at hd
    exact List.prefix_of_prefix_length_le hb (h ▸ List.prefix_append _ _) hd

/-- Frames at the bottom of the stack stay there in every run that loads nothing and keeps the stack as deep as they are. -/
theorem prefix_frames_actAll {s : Session σ} {base : List UInt16} (hb : base <+: s.stack.frames)
    {actions : List (Action (Option Keypress))} (hl : ∀ a ∈ actions, a.isLoad = false)
    (hd : ∀ before, before <+: actions → base.length ≤ (s.actAll before).1.stack.depth) :
    base <+: (s.actAll actions).1.stack.frames := by
  induction actions generalizing s with
  | nil => exact hb
  | cons a rest ih =>
    have hfirst : base.length ≤ (s.act a).1.stack.depth := hd [a] (List.cons_prefix_cons.mpr ⟨rfl, List.nil_prefix⟩)
    refine ih ((s.frameStep_act (hl a List.mem_cons_self)).prefix_frames hb hfirst)
      (fun b hm => hl b (List.mem_cons_of_mem a hm)) fun before hbefore => ?_
    exact hd (a :: before) (List.cons_prefix_cons.mpr ⟨rfl, hbefore⟩)

/-- A session that has come back from a call: it is behind the call, and its frames are the caller's. -/
structure BackFrom (caller s : Session σ) : Prop where
  pc : s.registers.pc = caller.registers.pc + 2
  frames : s.stack.frames = caller.stack.frames
  running : s.status = .running

omit [Surface σ] in
/-- Closing the frame above the caller's frames comes back from the call. -/
theorem backFrom_of_frames {caller s t : Session σ}
    (hb : caller.stack.frames ++ [caller.registers.pc + 2] <+: s.stack.frames)
    (hd : t.stack.depth ≤ caller.stack.depth) (h : s.stack.frames = t.stack.frames ++ [t.registers.pc])
    (hr : t.status = .running) : caller.BackFrom t := by
  have hlen : (t.stack.frames ++ [t.registers.pc]).length ≤ (caller.stack.frames ++ [caller.registers.pc + 2]).length := by
    simp only [List.length_append, List.length_singleton, CallStack.length_frames]
    omega
  have heq : caller.stack.frames ++ [caller.registers.pc + 2] = t.stack.frames ++ [t.registers.pc] :=
    (h ▸ hb).eq_of_length_le hlen
  obtain ⟨hframes, hpc⟩ := List.append_inj' heq rfl
  exact ⟨(List.singleton_inj.mp hpc).symm, hframes.symm, hr⟩

/-- A call of a reachable session opens a frame with the address behind it. As long as nothing is loaded and the stack stays deeper
than it was, the caller's frames and that one are the bottom of the stack. The first action that leaves the stack no deeper than it
was is a step that executes a return, and it comes back from the call; and a return at one frame more than the caller had does. -/
theorem returns_behind_call {s : Session σ} (h : s.Reachable) (hs : s.status = .running) {target : UInt16}
    (hn : s.Next (.call target)) {latched : Option Keypress} (hc : (s.step latched).1.status = .running)
    {actions : List (Action (Option Keypress))} (hl : ∀ a ∈ actions, a.isLoad = false)
    (hd : ∀ before, before <+: actions → s.stack.depth + 1 ≤ ((s.step latched).1.actAll before).1.stack.depth) :
    (s.registers.pc + 2).toNat = s.registers.pc.toNat + 2 ∧
    (∀ before, before <+: actions →
      s.stack.frames ++ [s.registers.pc + 2] <+: ((s.step latched).1.actAll before).1.stack.frames) ∧
    ∀ inside, inside = ((s.step latched).1.actAll actions).1 →
      (∀ a : Action (Option Keypress), a.isLoad = false → (inside.act a).1.stack.depth ≤ s.stack.depth →
        (∃ look, a = .step look) ∧ inside.Next .ret ∧ s.BackFrom (inside.act a).1) ∧
      (inside.status = .running → inside.Next .ret → inside.stack.depth = s.stack.depth + 1 →
        ∀ look, s.BackFrom (inside.step look).1) := by
  have hopened := frames_step_of_call hn hs hc
  have hbottom : ∀ before, before <+: actions →
      s.stack.frames ++ [s.registers.pc + 2] <+: ((s.step latched).1.actAll before).1.stack.frames := by
    intro before hbefore
    refine prefix_frames_actAll (hopened ▸ List.prefix_rfl) (fun a ha => hl a (hbefore.subset ha)) fun early hearly => ?_
    rw [List.length_append, CallStack.length_frames]
    exact hd early (hearly.trans hbefore)
  refine ⟨h.inRange.toNat_pc_advance, hbottom, ?_⟩
  rintro inside rfl
  have hb := hbottom actions List.prefix_rfl
  have hdeep := hd actions List.prefix_rfl
  constructor
  · intro a ha hback
    obtain ⟨look, rfl⟩ : ∃ look, a = .step look := by
      refine Classical.byContradiction fun hne => ?_
      rw [stack_act_of_ne_step _ ha (not_exists.mp hne)] at hback
      omega
    have hlen := CallStack.length_frames ((s.step latched).1.actAll actions).1.stack
    have hlen' := CallStack.length_frames (((s.step latched).1.actAll actions).1.step look).1.stack
    have hback' : (((s.step latched).1.actAll actions).1.step look).1.stack.depth ≤ s.stack.depth := hback
    cases ((s.step latched).1.actAll actions).1.frameStep_step look with
    | kept hf =>
      rw [hf] at hlen'
      omega
    | called _ hf =>
      rw [hf, List.length_append] at hlen'
      omega
    | returned hret hf hr => exact ⟨⟨look, rfl⟩, hret, backFrom_of_frames hb hback' hf hr⟩
  · intro hr hret hdepth look
    have hreach : ((s.step latched).1.actAll actions).1.Reachable := (h.act (.step latched)).actAll actions
    obtain ⟨hf, hrun⟩ := hreach.inRange.frames_step_of_ret hr hret (by omega) look
    refine backFrom_of_frames hb ?_ hf hrun
    have hlen := congrArg List.length hf
    rw [List.length_append, CallStack.length_frames, CallStack.length_frames, List.length_singleton] at hlen
    omega

/-- A session at the start of a program that calls a subroutine at 0x206, which calls one at 0x204. -/
def nestedCalls : Session (Framebuffer .standard) :=
  loaded (.blank .standard) [0x22, 0x06, 0x12, 0x02, 0x00, 0xee, 0x22, 0x04, 0x00, 0xee] 0x200

/-- With a tick inside the inner call and a look at the keypad behind it, the outer call comes back. -/
theorem returns_behind_call_nested :
    nestedCalls.Reachable ∧ nestedCalls.status = .running ∧ nestedCalls.Next (.call 0x206) ∧
      (nestedCalls.step none).1.status = .running ∧
      (∀ before, before <+: [.step none, .tick, .step none, .poll none] →
        nestedCalls.stack.depth + 1 ≤ ((nestedCalls.step none).1.actAll before).1.stack.depth) ∧
      nestedCalls.BackFrom
        (((nestedCalls.step none).1.actAll [.step none, .tick, .step none, .poll none]).1.act (.step none)).1 := by
  have hreach : nestedCalls.Reachable := reachable_loaded _ _ _
  have hnext : nestedCalls.Next (.call 0x206) := ⟨_, ⟨by decide +kernel, rfl⟩, by decide +kernel⟩
  have hrun : (nestedCalls.step none).1.status = .running := by decide +kernel
  have htake : ∀ n < 5, nestedCalls.stack.depth + 1 ≤
      ((nestedCalls.step none).1.actAll ([.step none, .tick, .step none, .poll none].take n)).1.stack.depth := by
    decide +kernel
  have hdeep : ∀ before, before <+: [.step none, .tick, .step none, .poll none] →
      nestedCalls.stack.depth + 1 ≤ ((nestedCalls.step none).1.actAll before).1.stack.depth := by
    intro before hb
    rw [List.prefix_iff_eq_take.mp hb]
    exact htake before.length (Nat.lt_succ_of_le hb.length_le)
  have hback := ((returns_behind_call hreach rfl hnext hrun (by decide) hdeep).2.2 _ rfl).1 (.step none) rfl (by decide +kernel)
  exact ⟨hreach, rfl, hnext, hrun, hdeep, hback.2.2⟩

end ChipEight.Session
