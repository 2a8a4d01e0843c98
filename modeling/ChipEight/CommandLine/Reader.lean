import ChipEight.CommandLine.Arguments
import ChipEight.Text.Decimal

/-!
# Reading the command line

Arguments are read one by one. An option takes its value behind an equals sign or from the next argument, and what it takes is
looked at only when the next thing is recognised or the arguments end. So a fault in a value gives way to an unknown option, to a
value where none is allowed, or to an argument too many, when one of these comes next; otherwise the first fault wins. That there
is no program is found last.
-/

namespace ChipEight.CommandLine

/-- What is wrong with a command line, or the wish for help. -/
inductive UsageError where
  /-- There is no program. -/
  | missingArgument
  /-- There is no such option, or there are too many programs. -/
  | unknownArgument
  /-- An option is given twice. -/
  | repeatedOption
  /-- A value is missing, is empty, or is no truth value. -/
  | invalidValue
  /-- A number cannot be read or is out of range. -/
  | invalidNumber
  /-- A value is given to an option that has none. -/
  | unexpectedValue
  /-- Help is wished for. -/
  | help
  deriving DecidableEq, Repr

/-- The options without a value. -/
inductive Switch where
  | cosmac
  | mute
  | disassemble
  deriving DecidableEq, Repr

/-- The options with a value. -/
inductive Choice where
  | settingsFile
  | shiftsInPlace
  | keepsIndex
  | zeroHeightIsSixteen
  | cpuHz
  | maxSteps
  | seed
  deriving DecidableEq, Repr

/-- What an option asks for. -/
inductive Request where
  | switch (s : Switch)
  | choice (c : Choice)
  | help
  deriving DecidableEq, Repr

/-- The options by their names. -/
def requests : List (String × Request) := [
  ("config", .choice .settingsFile),
  ("cosmac", .switch .cosmac),
  ("shift-uses-destination-register", .choice .shiftsInPlace),
  ("block-ops-preserve-index-pointer", .choice .keepsIndex),
  ("zero-height-sprite-is-sixteen-rows", .choice .zeroHeightIsSixteen),
  ("cpu-hz", .choice .cpuHz),
  ("max-steps", .choice .maxSteps),
  ("seed", .choice .seed),
  ("mute", .switch .mute),
  ("disassemble", .switch .disassemble),
  ("help", .help)]

/-- What was read so far. -/
structure Given where
  program : Option String := none
  settingsFile : Option String := none
  cosmac : Bool := false
  shiftsInPlace : Option Bool := none
  keepsIndex : Option Bool := none
  zeroHeightIsSixteen : Option Bool := none
  cpuHz : Option UInt32 := none
  maxSteps : Option UInt64 := none
  seed : Option UInt64 := none
  mute : Bool := false
  disassemble : Bool := false

/-- What was read but not yet looked at. -/
inductive Pending where
  | nothing
  /-- An option whose value was not yet seen. -/
  | awaiting (c : Choice)
  | value (c : Choice) (text : String)
  | program (path : String)

/-- How far the reading has come. -/
structure Reading where
  given : Given
  pending : Pending
  /-- Whether options are over, so that all that follows is no option. -/
  optionsOver : Bool

/-- A path. It may not be empty. -/
def readPath (text : String) : Except UsageError String := if text.isEmpty then .error .invalidValue else .ok text

/-- A truth value. -/
def readBool (text : String) : Except UsageError Bool :=
  if text = "true" then .ok true else if text = "false" then .ok false else .error .invalidValue

/-- A number of 32 bits. It may have a sign. -/
def readU32 (text : String) : Except UsageError UInt32 :=
  match Text.signedBelow? 0x100000000 text with
  | some n => .ok (UInt32.ofNat n)
  | none => .error .invalidNumber

/-- A number of 64 bits. It may have a plus sign. -/
def readU64 (text : String) : Except UsageError UInt64 :=
  match Text.natBelow? 0x10000000000000000 text with
  | some n => .ok (UInt64.ofNat n)
  | none => .error .invalidNumber

/-- Puts a value in a place that must still be free. -/
def fill {α : Type} (place : Option α) (read : Except UsageError α) (put : α → Given) : Except UsageError Given :=
  if place.isSome then .error .repeatedOption else put <$> read

/-- Looks at the value of an option. -/
def Given.choose (g : Given) (text : String) : Choice → Except UsageError Given
  | .settingsFile => fill g.settingsFile (readPath text) fun v => { g with settingsFile := some v }
  | .shiftsInPlace => fill g.shiftsInPlace (readBool text) fun v => { g with shiftsInPlace := some v }
  | .keepsIndex => fill g.keepsIndex (readBool text) fun v => { g with keepsIndex := some v }
  | .zeroHeightIsSixteen => fill g.zeroHeightIsSixteen (readBool text) fun v => { g with zeroHeightIsSixteen := some v }
  | .cpuHz => fill g.cpuHz (readU32 text) fun v => { g with cpuHz := some v }
  | .maxSteps => fill g.maxSteps (readU64 text) fun v => { g with maxSteps := some v }
  | .seed => fill g.seed (readU64 text) fun v => { g with seed := some v }

/-- Turns a switch on. -/
def Given.turnOn (g : Given) : Switch → Except UsageError Given
  | .cosmac => if g.cosmac then .error .repeatedOption else .ok { g with cosmac := true }
  | .mute => if g.mute then .error .repeatedOption else .ok { g with mute := true }
  | .disassemble => if g.disassemble then .error .repeatedOption else .ok { g with disassemble := true }

namespace Reading

/-- Nothing was read yet. -/
def start : Reading := ⟨{}, .nothing, false⟩

/-- Looks at what is pending. -/
def settle (r : Reading) : Except UsageError Given :=
  match r.pending with
  | .nothing => .ok r.given
  | .awaiting _ => .error .invalidValue
  | .value c text => r.given.choose text c
  | .program path => do
    let path ← readPath path
    .ok { r.given with program := some path }

/-- Whether the program was named. -/
def hasProgram (r : Reading) : Bool :=
  r.given.program.isSome || match r.pending with
    | .program _ => true
    | _ => false

/-- Reads an argument that is no option and no value. -/
def plain (r : Reading) (argument : String) : Except UsageError Reading :=
  if r.hasProgram then .error .unknownArgument
  else do
    let given ← r.settle
    .ok { r with given := given, pending := .program argument }

/-- Reads an option by its name, with the value behind its equals sign if it has one. -/
def option (r : Reading) (name : String) (value : Option String) : Except UsageError Reading :=
  match requests.lookup name, value with
  | none, _ => .error .unknownArgument
  | some (.choice c), some text => do
    let given ← (← r.settle).choose text c
    .ok { r with given := given, pending := .nothing }
  | some (.choice c), none => do
    let given ← r.settle
    .ok { r with given := given, pending := .awaiting c }
  | some _, some _ => .error .unexpectedValue
  | some (.switch s), none => do
    let given ← (← r.settle).turnOn s
    .ok { r with given := given, pending := .nothing }
  | some .help, none => do
    let _ ← r.settle
    .error .help

/-- Reads what follows the two hyphens of an option. -/
def longOption (r : Reading) (cs : List Char) : Except UsageError Reading :=
  match cs.span (· != '=') with
  | (name, '=' :: value) => r.option (String.ofList name) (some (String.ofList value))
  | (name, _) => r.option (String.ofList name) none

/-- Reads one argument. Of the options of a single letter there is only the one for help. -/
def next (r : Reading) (argument : String) : Except UsageError Reading :=
  if r.optionsOver then r.plain argument
  else
    match argument.toList with
    | ['-', '-'] => .ok { r with optionsOver := true }
    | '-' :: '-' :: rest => r.longOption rest
    | '-' :: 'h' :: _ => r.option "help" none
    | '-' :: _ :: _ => .error .unknownArgument
    | _ =>
      match r.pending with
      | .awaiting c => .ok { r with pending := .value c argument }
      | _ => r.plain argument

/-- The arguments, once all are read. -/
def finish (r : Reading) : Except UsageError Arguments := do
  let g ← r.settle
  match g.program with
  | none => .error .missingArgument
  | some program =>
    .ok { g with program := program }

end Reading

/-- The arguments of a command line. -/
def read (arguments : List String) : Except UsageError Arguments := do
  let r ← arguments.foldlM Reading.next .start
  r.finish

end ChipEight.CommandLine
