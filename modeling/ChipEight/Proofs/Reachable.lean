import ChipEight.Session.Console

/-!
# Reachable sessions

A session is reachable when some history of loads, steps, ticks, polls and presents leads to it from a start. Every answer of the
keypad is allowed in every step and poll, so what holds of the reachable sessions holds whatever the keys, the speaker and the
observer of a console do (`Console.reachable_actAll`).
-/

namespace ChipEight

/-- Whether an action loads a program. -/
def Action.isLoad {α : Type} : Action α → Bool
  | .load _ _ => true
  | _ => false

variable {σ κ : Type} [Surface σ]

namespace Session

/-- The sessions that some history leads to. -/
inductive Reachable : Session σ → Prop where
  | start (settings : Settings) (entropy : ByteStream) (surface : σ) : Reachable (Session.start settings entropy surface).1
  | act {s : Session σ} (a : Action (Option Keypress)) (h : Reachable s) : Reachable (s.act a).1

/-- Whatever is done to a reachable session leaves a reachable one. -/
theorem Reachable.actAll {s : Session σ} (h : s.Reachable) (actions : List (Action (Option Keypress))) :
    (s.actAll actions).1.Reachable := by
  induction actions generalizing s with
  | nil => exact h
  | cons a rest ih => exact ih (h.act a)

/-- The first actions of a history come before the others. -/
theorem actAll_append (s : Session σ) (actions others : List (Action (Option Keypress))) :
    (s.actAll (actions ++ others)).1 = ((s.actAll actions).1.actAll others).1 := by
  induction actions generalizing s with
  | nil => rfl
  | cons a rest ih => exact ih (s.act a).1

/-- What the first actions of a history tell comes before what the others tell. -/
theorem told_actAll_append (s : Session σ) (actions others : List (Action (Option Keypress))) :
    (s.actAll (actions ++ others)).2 = (s.actAll actions).2 ++ ((s.actAll actions).1.actAll others).2 := by
  induction actions generalizing s with
  | nil => rfl
  | cons a rest ih =>
    simp only [List.cons_append, actAll, ih, List.append_assoc]

/-- The reachable sessions are the ones at the ends of histories. -/
theorem reachable_iff (s : Session σ) :
    s.Reachable ↔ ∃ (settings : Settings) (entropy : ByteStream) (surface : σ) (actions : List (Action (Option Keypress))),
      s = ((Session.start settings entropy surface).1.actAll actions).1 := by
  constructor
  · intro h
    induction h with
    | start settings entropy surface => exact ⟨settings, entropy, surface, [], rfl⟩
    | act a _ ih =>
      obtain ⟨settings, entropy, surface, actions, rfl⟩ := ih
      exact ⟨settings, entropy, surface, actions ++ [a], (actAll_append _ actions [a]).symm⟩
  · rintro ⟨settings, entropy, surface, actions, rfl⟩
    exact (Reachable.start settings entropy surface).actAll actions

/-- A session of the standard settings in which one program was loaded. -/
def loaded (surface : σ) (program : List UInt8) (address : UInt16) : Session σ :=
  ((Session.start .standard (.ofSeed 0) surface).1.act (.load program address)).1

theorem reachable_loaded (surface : σ) (program : List UInt8) (address : UInt16) : (loaded surface program address).Reachable :=
  (Reachable.start .standard (.ofSeed 0) surface).act _

end Session

namespace Console

omit [Surface σ] in
/-- Telling the devices something does not change the session. -/
theorem session_foldl_hear (c : Console σ κ) (effects : List Effect) : (effects.foldl hear c).session = c.session := by
  induction effects generalizing c with
  | nil => rfl
  | cons e rest ih => exact ih (c.hear e)

omit [Surface σ] in
/-- Telling the devices something does not touch the keypad. -/
theorem keypad_foldl_hear (c : Console σ κ) (effects : List Effect) : (effects.foldl hear c).keypad = c.keypad := by
  induction effects generalizing c with
  | nil => rfl
  | cons e rest ih => exact ih (c.hear e)

omit [Surface σ] in
/-- The session of a console after an operation is what the operation made of it. -/
theorem session_settle (c : Console σ κ) (done : Session σ × List Effect) : (c.settle done).session = done.1 :=
  session_foldl_hear _ _

/-- What is done to the session when something is done to a console: the keypad answers the look there may be. -/
def answer [Keypad κ] (c : Console σ κ) : Action Nat → Action (Option Keypress)
  | .load program address => .load program address
  | .step now => .step (Keypad.look c.keypad now).1
  | .tick => .tick
  | .poll now => .poll (Keypad.look c.keypad now).1
  | .present => .present

/-- The keypad after something is done to a console. -/
def looked [Keypad κ] (c : Console σ κ) (a : Action Nat) : κ :=
  match a with
  | .step now | .poll now => c.keypadAfter (Keypad.look c.keypad now).2 (c.session.act (c.answer a)).2
  | _ => c.keypad

/-- What is done to a console is done to its session, with the answer of the keypad, and what the session tells is passed on. -/
theorem act_eq [Keypad κ] (c : Console σ κ) (a : Action Nat) :
    c.act a = { c with keypad := c.looked a }.settle (c.session.act (c.answer a)) := by
  cases a <;> rfl

theorem session_act [Keypad κ] (c : Console σ κ) (a : Action Nat) : (c.act a).session = (c.session.act (c.answer a)).1 := by
  rw [act_eq, session_settle]

/-- The session of a console is reachable after every history, whatever its keypad answers, with every speaker, and with or
without a tracer. -/
theorem reachable_actAll [Keypad κ] (settings : Settings) (entropy : ByteStream) (surface : σ) (keypad : κ) (speaker : Speaker)
    (tracer : Option Tracer) (actions : List (Action Nat)) :
    (({ start settings entropy surface keypad speaker with tracer := tracer } : Console σ κ).actAll actions).session.Reachable := by
  have key : ∀ (actions : List (Action Nat)) (c : Console σ κ), c.session.Reachable → (c.actAll actions).session.Reachable := by
    intro actions
    induction actions with
    | nil => exact fun c h => h
    | cons a rest ih =>
      intro c h
      exact ih (c.act a) (c.session_act a ▸ h.act (c.answer a))
  refine key actions _ ?_
  show (start settings entropy surface keypad speaker).session.Reachable
  rw [start, session_settle]
  exact Session.Reachable.start settings entropy surface

end Console

end ChipEight
