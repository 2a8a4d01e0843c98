/-!
# Dialects

Interpreters of the machine disagree about three instructions. A dialect says which side a session takes on each; it is chosen
once, before the session starts.
-/

namespace ChipEight

/-- The three choices a session makes. -/
structure Dialect where
  /-- Whether 8xy6 and 8xyE shift Vx in place, with the bit shifted out in VF. Otherwise Vx becomes Vy shifted and VF is left
  alone. -/
  shiftsInPlace : Bool
  /-- Whether Fx33, Fx55 and Fx65 leave I alone. Otherwise I moves past the bytes they touch. -/
  keepsIndex : Bool
  /-- Whether a sprite of height 0 has sixteen rows. Otherwise it has none. -/
  zeroHeightIsSixteen : Bool
  deriving DecidableEq, Repr

namespace Dialect

/-- What a session speaks unless told otherwise: yes to all three. -/
def standard : Dialect := ⟨true, true, true⟩

/-- What the interpreter of the COSMAC VIP speaks: no to all three. -/
def cosmac : Dialect := ⟨false, false, false⟩

instance : Inhabited Dialect := ⟨standard⟩

end Dialect

end ChipEight
