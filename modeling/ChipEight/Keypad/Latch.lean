import ChipEight.Keypad.Keypress

/-!
# The key latch

A session looks at the keypad when an instruction needs a key, and sees the key that is latched then. Terminals do not report when
a key is let go, so a key stays latched for a time after it was last seen. A latched cancel stays.

Times are in nanoseconds since the session started.
-/

namespace ChipEight

/-- What a type needs to be a keypad: the answer to a look at a given time, and the keypad after it. -/
class Keypad (κ : Type) where
  look : κ → Nat → Option Keypress × κ

/-- A keypad on which the same key, or none, is down all the time. -/
structure HeldKey where
  key : Option Keypress
  deriving DecidableEq, Repr

instance : Keypad HeldKey where
  look h _ := (h.key, h)

/-- The key that was seen last, and how long a key counts as down. -/
structure KeyLatch where
  /-- The key, and when it was seen. -/
  latched : Option (Keypress × Nat)
  hold : Nat
  deriving DecidableEq, Repr

namespace KeyLatch

/-- A latch that has seen no key. -/
def empty (hold : Nat) : KeyLatch := ⟨none, hold⟩

/-- Sees a key event. An event that means nothing leaves the latch alone. -/
def note (now : Nat) (l : KeyLatch) (e : KeyEvent) : KeyLatch :=
  match e.keypress? with
  | some k => { l with latched := some (k, now) }
  | none => l

/-- What is latched at a time. A key whose time is over is forgotten. -/
def answer (l : KeyLatch) (now : Nat) : Option Keypress × KeyLatch :=
  match l.latched with
  | some (.cancel, _) => (some .cancel, l)
  | some (.key k, since) => if now - since < l.hold then (some (.key k), l) else (none, { l with latched := none })
  | none => (none, l)

/-- A look: first sees the events that arrived since the last one, in their order, then answers. -/
def look (l : KeyLatch) (arrived : List KeyEvent) (now : Nat) : Option Keypress × KeyLatch :=
  (arrived.foldl (note now) l).answer now

end KeyLatch

end ChipEight
