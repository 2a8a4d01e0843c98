import ChipEight.CommandLine.Reader
import ChipEight.Drive
import ChipEight.Keypad.Keyboard
import ChipEight.Listing
import ChipEight.Screen.Terminal
import ChipEight.Settings.File

/-!
# The program

From a command line to an exit code. First the arguments are read, then the settings file, then the file with the program; the
first of these that fails ends it. Then either a listing is written or a session is run in the terminal.
-/

namespace ChipEight

/-- Why nothing is done. -/
inductive Refusal where
  | usage (e : CommandLine.UsageError)
  | settings (e : SettingsError)
  /-- The file with the program cannot be read. -/
  | program
  deriving DecidableEq, Repr

/-- What a process that does nothing exits with. To ask for help is no fault. -/
def Refusal.exitCode : Refusal → Nat
  | .usage .help => 0
  | .usage _ => 2
  | .settings _ | .program => 1

/-- What is to be done. -/
inductive Plan where
  /-- Write a text. -/
  | write (text : String)
  /-- Run a program, perhaps for a number of instructions only. -/
  | run (settings : Settings) (limit : Option Nat) (program : List UInt8)

/-- What a command line asks for, given the files there are. -/
def Plan.ofArguments (arguments : List String) (files : String → Option ByteArray) : Except Refusal Plan := do
  let a ← (CommandLine.read arguments).mapError .usage
  let settings ← match a.settingsFile with
    | none => pure Settings.standard
    | some path => (Settings.ofFile (files path)).mapError .settings
  let program ← match files a.program with
    | none => throw .program
    | some bytes => pure bytes.toList
  if a.disassemble then return .write (listing program Memory.programStart)
  else return .run (a.apply settings) (a.maxSteps.map UInt64.toNat) program

/-- The rates of the settings. -/
def Settings.cadence (s : Settings) : Cadence := ⟨s.cpuHz, s.timerHz⟩

/-- What a process exits with after a session. A session whose steps were used up has done what was asked. -/
def Verdict.exitCode : Verdict → Nat
  | .finished .running => 0
  | .finished (.halted reason) => reason.exitCode
  | .failed _ | .outOfTime => 1

/-- What is reported at the end of a session: a fault, if there was one. -/
def Verdict.report? : Verdict → Option String
  | .finished (.halted (.fault f)) => some ("chip8: " ++ f.message)
  | _ => none

/-- A session that is shown in a terminal and takes its keys from the keyboard. -/
abbrev TerminalConsole := Console (TerminalDisplay .standard) Keyboard

namespace TerminalConsole

/-- How long a key counts as down, in nanoseconds. -/
def keyHold : Nat := 150000000

/-- The console of a program that was just loaded, unless the program does not fit. Bytes that were typed before wait for the
first look at the keypad. -/
def start (settings : Settings) (entropy : ByteStream) (typed : List UInt8) (traced : Bool) (program : List UInt8) :
    Except Fault TerminalConsole :=
  let c : TerminalConsole :=
    Console.start settings entropy (.blank .standard fun _ => none) ((Keyboard.untouched keyHold).type typed) .working
  let c := if traced then c.observe else c
  match c.load program Memory.programStart with
  | (some f, _) => .error f
  | (none, c) => .ok c

/-- The console with more bytes typed. -/
def type (c : TerminalConsole) (typed : List UInt8) : TerminalConsole := { c with keypad := c.keypad.type typed }

/-- The lines of the trace, oldest first. -/
def traceLines (c : TerminalConsole) : List String :=
  c.log.reverse.filterMap fun
    | .trace text => some text
    | .warning _ => none

/-- The console with its record of the past left out. -/
def forget (c : TerminalConsole) : TerminalConsole := { c with told := [], log := [] }

end TerminalConsole

end ChipEight
