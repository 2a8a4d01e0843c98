import ChipEight.Settings.Basic

/-!
# Arguments of the program

What the command line can say, and how it overrides the settings of a file: first the dialect as a whole, then its choices one by
one, then the rest.
-/

namespace ChipEight

/-- What the command line says. -/
structure Arguments where
  /-- The file with the program. -/
  program : String
  /-- The file with settings. -/
  settingsFile : Option String
  /-- Whether to start from the dialect of the COSMAC VIP. -/
  cosmac : Bool
  shiftsInPlace : Option Bool
  keepsIndex : Option Bool
  zeroHeightIsSixteen : Option Bool
  cpuHz : Option UInt32
  /-- After how many instructions to stop. -/
  maxSteps : Option UInt64
  seed : Option UInt64
  mute : Bool
  /-- Whether to write a listing instead of running the program. -/
  disassemble : Bool
  deriving DecidableEq, Repr

/-- The settings with what the arguments say about them put in place. -/
def Arguments.apply (a : Arguments) (s : Settings) : Settings :=
  let base := if a.cosmac then Dialect.cosmac else s.dialect
  { s with
    dialect :=
      { shiftsInPlace := a.shiftsInPlace.getD base.shiftsInPlace
        keepsIndex := a.keepsIndex.getD base.keepsIndex
        zeroHeightIsSixteen := a.zeroHeightIsSixteen.getD base.zeroHeightIsSixteen }
    cpuHz := a.cpuHz.getD s.cpuHz
    seed := a.seed <|> s.seed }

end ChipEight
