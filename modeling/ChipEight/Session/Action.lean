import ChipEight.Session.Step

/-!
# Histories of a session

Everything that can be done to a session, as data, so that one can speak of a whole sequence of it. A step and a poll come with
what decides what a look at the keypad answers; for a session that is the answer itself.
-/

namespace ChipEight

/-- One thing done to a session, where `α` is what a look at the keypad comes with. -/
inductive Action (α : Type) where
  | load (program : List UInt8) (address : UInt16)
  | step (look : α)
  | tick
  | poll (look : α)
  | present
  deriving DecidableEq, Repr

namespace Session

variable {σ : Type} [Surface σ]

/-- Does one thing to a session. -/
def act (s : Session σ) : Action (Option Keypress) → Session σ × List Effect
  | .load program address => ((s.load program address).2, [])
  | .step latched => s.step latched
  | .tick => s.tick
  | .poll latched => s.poll latched
  | .present => (s.present.2, [])

/-- Does one thing after the other, and collects what was told. -/
def actAll (s : Session σ) : List (Action (Option Keypress)) → Session σ × List Effect
  | [] => (s, [])
  | a :: rest =>
    let first := s.act a
    let others := first.1.actAll rest
    (others.1, first.2 ++ others.2)

end Session

end ChipEight
