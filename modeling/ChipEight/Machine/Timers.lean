/-!
# Timers and what they say to the speaker

Two countdowns, one step per tick of the 60 Hz clock and never from an instruction. A tone sounds while the sound timer runs: it
starts when the timer is set and stops when the timer is set to zero or runs out.
-/

namespace ChipEight

/-- What a speaker can be asked to do. -/
inductive SpeakerCall where
  /-- Start a tone that will last so many microseconds. -/
  | start (microseconds : Nat)
  /-- Stop the tone. -/
  | stop
  /-- Sound at so many hertz from now on. -/
  | pitch (hertz : UInt16)
  deriving DecidableEq, Repr

namespace Tone

/-- The notes a program can choose, in hertz. The first is silence. -/
def notes : List UInt16 := [
  0, 65, 73, 82, 87, 98, 110, 123, 131, 147, 165, 175, 196, 220, 247, 262,
  294, 330, 349, 392, 440, 494, 523, 587, 659, 698, 784, 880, 988, 1047]

/-- The note with a number, if there is one. -/
def note? (number : UInt8) : Option UInt16 := notes[number.toNat]?

/-- How long a tone of so many ticks lasts, in whole microseconds. -/
def microseconds (ticks : UInt8) : Nat := ticks.toNat * 1000000 / 60

end Tone

/-- A count of ticks that stops at zero. -/
structure Countdown where
  left : UInt8
  deriving DecidableEq, Repr

/-- One tick: the countdown after it, and whether this was the tick that reached zero. -/
def Countdown.tick (c : Countdown) : Countdown × Bool :=
  if c.left = 0 then (c, false) else (⟨c.left - 1⟩, decide (c.left = 1))

/-- The two timers. -/
structure Timers where
  delay : Countdown
  sound : Countdown
  deriving DecidableEq, Repr

namespace Timers

/-- Both timers at zero. -/
def zero : Timers := ⟨⟨0⟩, ⟨0⟩⟩

/-- Sets the delay timer. -/
def setDelay (t : Timers) (value : UInt8) : Timers := { t with delay := ⟨value⟩ }

/-- Sets the sound timer, and what the speaker is asked to do. -/
def setSound (t : Timers) (value : UInt8) : Timers × SpeakerCall :=
  ({ t with sound := ⟨value⟩ }, if value = 0 then .stop else .start (Tone.microseconds value))

/-- One tick of both timers, and what the speaker is asked to do. -/
def tick (t : Timers) : Timers × List SpeakerCall :=
  (⟨t.delay.tick.1, t.sound.tick.1⟩, if t.sound.tick.2 then [.stop] else [])

end Timers

end ChipEight
