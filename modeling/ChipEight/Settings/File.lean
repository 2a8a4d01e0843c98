import ChipEight.Settings.Basic
import ChipEight.Toml.Document

/-!
# Settings in a file

A settings file is a TOML document with the keys `quirks`, `cpu_hz`, `timer_hz`, `seed` and `pitch`. All of them may be missing,
and other keys are ignored. The choices of the dialect are a table with three keys, or an array of up to three values in the order
of the keys; a date or a time in their place holds none of the keys, so it changes nothing.
-/

namespace ChipEight

/-- Why settings cannot be had from a file. -/
inductive SettingsError where
  /-- There is no such file. -/
  | notFound
  /-- It is no text, no document, or a value has the wrong type or is out of range. -/
  | invalidData
  deriving DecidableEq, Repr

namespace Settings

open Toml (Value Entries)

/-- The number under a key, below a bound, or a default if the key is missing. -/
def natField (es : Entries) (key : String) (bound default : Nat) : Option Nat :=
  match es.lookup key with
  | none => some default
  | some (.integer n) => if 0 ≤ n ∧ n < bound then some n.toNat else none
  | some _ => none

/-- The seed, if there is one. -/
def seedField (es : Entries) : Option (Option UInt64) :=
  match es.lookup "seed" with
  | none => some none
  | some (.integer n) => if 0 ≤ n then some (some (UInt64.ofNat n.toNat)) else none
  | some _ => none

/-- A truth value, or a default if it is missing. -/
def boolOr (default : Bool) : Option Value → Option Bool
  | none => some default
  | some (.boolean b) => some b
  | some _ => none

/-- A dialect from what is known of its three choices. -/
def dialectOf (shifts keeps sixteen : Option Value) : Option Dialect := do
  let standard := Dialect.standard
  return ⟨← boolOr standard.shiftsInPlace shifts, ← boolOr standard.keepsIndex keeps,
    ← boolOr standard.zeroHeightIsSixteen sixteen⟩

/-- The dialect. -/
def dialectField (es : Entries) : Option Dialect :=
  match es.lookup "quirks" with
  | none | some (.moment _) => some .standard
  | some (.table _ choices) =>
    dialectOf (choices.lookup "shift_uses_destination_register") (choices.lookup "block_ops_preserve_index_pointer")
      (choices.lookup "zero_height_sprite_is_sixteen_rows")
  | some (.array items) => dialectOf items[0]? items[1]? items[2]?
  | some _ => none

/-- The settings of a document's entries. -/
def ofEntries (es : Entries) : Option Settings := do
  return {
    dialect := ← dialectField es
    cpuHz := UInt32.ofNat (← natField es "cpu_hz" 0x100000000 standard.cpuHz.toNat)
    timerHz := UInt32.ofNat (← natField es "timer_hz" 0x100000000 standard.timerHz.toNat)
    seed := ← seedField es
    pitch := UInt16.ofNat (← natField es "pitch" 0x10000 standard.pitch.toNat) }

/-- The settings of a text. -/
def ofText (text : String) : Except SettingsError Settings :=
  match (Toml.read text).bind ofEntries with
  | some settings => .ok settings
  | none => .error .invalidData

/-- The settings of a file, given its bytes if there is such a file. -/
def ofFile : Option ByteArray → Except SettingsError Settings
  | none => .error .notFound
  | some bytes =>
    match String.fromUTF8? bytes with
    | some text => ofText text
    | none => .error .invalidData

end Settings

end ChipEight
