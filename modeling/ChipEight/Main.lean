import ChipEight.Program

/-!
# The command line

Reads files and keys, waits until events are due, and writes what is to be seen. What is done and in which order is decided by
`Plan.ofArguments` and `Stage.advance`. The terminal is expected to pass on every key as it is hit.
-/

namespace ChipEight.Main

/-- What is written when help is wished for. -/
def usage : String := "Run a CHIP-8 program in the terminal.\n\nUsage: chip8 [OPTIONS] <ROM>\n"

/-- The bytes of a file, if it can be read. -/
def readIfThere (path : String) : IO (Option ByteArray) :=
  try return some (← IO.FS.readBinFile path) catch _ => return none

/-- The files that a command line names. -/
def filesOf (arguments : List String) : IO (String → Option ByteArray) := do
  match CommandLine.read arguments with
  | .error _ => return fun _ => none
  | .ok a =>
    let paths := a.program :: a.settingsFile.toList
    let contents ← paths.mapM fun path => return (path, ← readIfThere path)
    return fun path => (contents.lookup path).join

/-- Collects the bytes that are typed. -/
partial def collect (typed : IO.Ref (List UInt8)) : IO Unit := do
  let bytes ← (← IO.getStdin).read 64
  if bytes.isEmpty then return
  typed.modify (· ++ bytes.toList)
  collect typed

/-- Shows the picture of a terminal display in the top left corner. -/
def draw (c : TerminalConsole) : IO Unit := do
  IO.print ("\x1b[H" ++ "\r\n".intercalate c.session.surface.screenRows ++ "\r\n")
  (← IO.getStdout).flush

/-- Writes what was traced, and shows the picture if it was drawn again. -/
def showChanges (before after : TerminalConsole) : IO TerminalConsole := do
  for line in after.traceLines do
    IO.eprintln line
  if before.session.surface.attempts != after.session.surface.attempts then draw after
  return after.forget

/-- Waits until the next event is due and handles it then, with the keys that were typed, until the drive is over. -/
partial def live (typed : IO.Ref (List UInt8)) (begun : Nat) (limit : Option Nat)
    (stage : Stage (TerminalDisplay .standard) Keyboard) : IO Verdict := do
  let elapsed := (← IO.monoNanosNow) - begun
  if elapsed < stage.due then IO.sleep (UInt32.ofNat ((stage.due - elapsed) / 1000000))
  let now := (← IO.monoNanosNow) - begun
  let ready := TerminalConsole.type stage.console (← typed.modifyGet fun bytes => (bytes, []))
  match { stage with console := ready }.advance limit now with
  | .goesOn later => live typed begun limit { later with console := ← showChanges ready later.console }
  | .over c verdict =>
    let _ ← showChanges ready c
    return verdict

/-- A seed that differs from run to run. -/
def freshSeed : IO UInt64 := do
  let bytes ← IO.getRandomBytes 8
  return bytes.toList.foldl (fun n b => n * 256 + b.toUInt64) 0

/-- Runs a program in the terminal. -/
def runSession (settings : Settings) (limit : Option Nat) (program : List UInt8) : IO Nat := do
  let traced := (← IO.getEnv "CHIP8_TRACE").isSome
  match TerminalConsole.start settings (.ofSeed (← freshSeed)) [] traced program with
  | .error f =>
    IO.eprintln f.message
    return 1
  | .ok c =>
    let typed ← IO.mkRef ([] : List UInt8)
    let _ ← IO.asTask (collect typed) .dedicated
    IO.print "\x1b[2J"
    let verdict ← live typed (← IO.monoNanosNow) limit (c.setOff settings.cadence)
    IO.print ("".pushn '\n' (Resolution.standard.height / 3))
    verdict.report?.forM fun report => IO.eprintln report
    return verdict.exitCode

/-- What is wrong with a command line, in words. -/
def refusalText : Refusal → String
  | .usage _ => "chip8: the arguments cannot be understood\n" ++ usage
  | .settings _ => "chip8: the settings file cannot be used"
  | .program => "chip8: the program cannot be read"

/-- Does what a command line asks for, and gives the exit code. -/
def run (arguments : List String) : IO Nat := do
  match Plan.ofArguments arguments (← filesOf arguments) with
  | .error refusal =>
    if refusal.exitCode = 0 then IO.print usage else IO.eprintln (refusalText refusal)
    return refusal.exitCode
  | .ok (.write text) =>
    IO.print text
    return 0
  | .ok (.run settings limit program) => runSession settings limit program

end ChipEight.Main

/-- The program. -/
def main (arguments : List String) : IO UInt32 := do
  return UInt32.ofNat (← ChipEight.Main.run arguments)
