import ChipEight.Dialect

/-!
# Settings

What can be chosen about a session. Everything has a default.
-/

namespace ChipEight

/-- The choices for a session. -/
structure Settings where
  dialect : Dialect
  /-- Instructions per second. -/
  cpuHz : UInt32
  /-- Timer ticks per second. -/
  timerHz : UInt32
  /-- What the random bytes are made from. Without a seed they differ from session to session. -/
  seed : Option UInt64
  /-- The tone at the start, in hertz. -/
  pitch : UInt16
  deriving DecidableEq, Repr

namespace Settings

/-- What is chosen unless told otherwise. -/
def standard : Settings := ⟨.standard, 700, 60, none, 880⟩

instance : Inhabited Settings := ⟨standard⟩

end Settings

end ChipEight
