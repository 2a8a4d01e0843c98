import ChipEight.Keypad.Latch
import ChipEight.Session.Action
import ChipEight.Settings.Basic
import ChipEight.Trace.Tracer

/-!
# A session with its devices

A console holds a session together with the keypad it looks at, the speaker it sounds through, and perhaps a tracer that observes
it. Whatever the session tells is passed on to the devices in order. A speaker that fails is written down and otherwise ignored.

The clock of a console is outside: an operation that can look at the keypad is given the time.
-/

namespace ChipEight

/-- A line of the log. -/
inductive LogEntry where
  | warning (text : String)
  | trace (text : String)
  deriving DecidableEq, Repr

/-- A speaker, as far as a session can tell: what is wrong with the `n`-th call, counted from zero, if something is. -/
abbrev Speaker := Nat → Option String

/-- A speaker that does all it is asked. -/
def Speaker.working : Speaker := fun _ => none

/-- A speaker that answers every call with the same error. -/
def Speaker.failing (error : String) : Speaker := fun _ => some error

/-- A session and the devices around it. -/
structure Console (σ κ : Type) where
  session : Session σ
  keypad : κ
  speaker : Speaker
  /-- How often the speaker was called. -/
  speakerCalls : Nat
  tracer : Option Tracer
  /-- What the session told, newest first. -/
  told : List Effect
  /-- The log, newest first. -/
  log : List LogEntry

/-- A session at its start, and what it tells. The settings' seed comes before `entropy` as the source of random bytes. -/
def Session.start {σ : Type} (settings : Settings) (entropy : ByteStream) (surface : σ) : Session σ × List Effect :=
  (.fresh settings.dialect ((settings.seed.map ByteStream.ofSeed).getD entropy) surface, [.speaker (.pitch settings.pitch)])

namespace Console

variable {σ κ : Type}

/-- What the log says of an effect, apart from the tracer. -/
def warning? (answer : Option String) : Effect → Option LogEntry
  | .speaker _ => answer.map fun error => .warning ("audio: " ++ error)
  | .ignored address extension =>
    some (.warning (Text.hexNumber 4 address.toNat ++ ": `" ++ extension.text ++ "` is not supported, ignored"))
  | _ => none

/-- Passes one effect on to the devices. -/
def hear (c : Console σ κ) (e : Effect) : Console σ κ :=
  let calls := match e with
    | .speaker _ => c.speakerCalls + 1
    | _ => c.speakerCalls
  let traced := c.tracer.map fun t => t.see e
  let lines := (warning? (c.speaker c.speakerCalls) e).toList ++ ((traced.bind (·.2)).map LogEntry.trace).toList
  { c with
    speakerCalls := calls
    tracer := traced.map (·.1)
    told := e :: c.told
    log := lines.reverse ++ c.log }

/-- Takes over what an operation made of the session, and passes on what it told. -/
def settle (c : Console σ κ) (done : Session σ × List Effect) : Console σ κ :=
  done.2.foldl hear { c with session := done.1 }

/-- A console at its start, without a tracer. -/
def start (settings : Settings) (entropy : ByteStream) (surface : σ) (keypad : κ) (speaker : Speaker) : Console σ κ :=
  let begun := Session.start settings entropy surface
  settle ⟨begun.1, keypad, speaker, 0, none, [], []⟩ begun

/-- The console with a tracer that has seen nothing yet. -/
def observe (c : Console σ κ) : Console σ κ := { c with tracer := some .empty }

/-- The keypad after an operation: the one after the look if there was a look. -/
def keypadAfter (c : Console σ κ) (looked : κ) (effects : List Effect) : κ :=
  if effects.contains .keyLook then looked else c.keypad

/-- Loads a program. -/
def load (c : Console σ κ) (program : List UInt8) (address : UInt16) : Option Fault × Console σ κ :=
  let loaded := c.session.load program address
  (loaded.1, { c with session := loaded.2 })

/-- One tick of the timers. -/
def tick (c : Console σ κ) : Console σ κ := c.settle c.session.tick

variable [Surface σ] [Keypad κ]

/-- One instruction. -/
def step (c : Console σ κ) (now : Nat) : Console σ κ :=
  let looked := Keypad.look c.keypad now
  let done := c.session.step looked.1
  { c with keypad := c.keypadAfter looked.2 done.2 }.settle done

omit [Surface σ] in
/-- Looks whether the session is to end. -/
def poll (c : Console σ κ) (now : Nat) : Console σ κ :=
  let looked := Keypad.look c.keypad now
  let done := c.session.poll looked.1
  { c with keypad := c.keypadAfter looked.2 done.2 }.settle done

omit [Keypad κ] in
/-- Asks the surface to show what changed. -/
def present (c : Console σ κ) : Option DeviceError × Console σ κ :=
  let presented := c.session.present
  (presented.1, { c with session := presented.2 })

/-- Does one thing to the session of a console. A step and a poll come with the time. -/
def act (c : Console σ κ) : Action Nat → Console σ κ
  | .load program address => (c.load program address).2
  | .step now => c.step now
  | .tick => c.tick
  | .poll now => c.poll now
  | .present => c.present.2

/-- Does one thing after the other. -/
def actAll (c : Console σ κ) (actions : List (Action Nat)) : Console σ κ := actions.foldl act c

end Console

end ChipEight
