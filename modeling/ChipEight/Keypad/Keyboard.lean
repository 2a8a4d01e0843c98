import ChipEight.Keypad.Latch
import ChipEight.Keypad.Typed

/-!
# The keyboard

A keypad that a terminal sends to. What is typed waits for the next look, which sees it up to the first answer about the cursor;
what comes after that waits for the look after it.
-/

namespace ChipEight

/-- A latch, and what arrived since the last look. -/
structure Keyboard where
  latch : KeyLatch
  waiting : List Arrival
  /-- The start of what has not arrived whole. -/
  begun : List UInt8
  deriving DecidableEq, Repr

namespace Keyboard

/-- A keyboard on which nothing was typed. -/
def untouched (hold : Nat) : Keyboard := ⟨.empty hold, [], []⟩

/-- The keyboard with more bytes typed. -/
def type (k : Keyboard) (bytes : List UInt8) : Keyboard :=
  let typed := Typed.read k.begun bytes
  { k with waiting := k.waiting ++ typed.1, begun := typed.2 }

/-- The key events that one look sees, and what is left for the next. -/
def seen : List Arrival → List KeyEvent × List Arrival
  | [] => ([], [])
  | .cursorReport :: rest => ([], rest)
  | .other :: rest => seen rest
  | .key e :: rest =>
    let others := seen rest
    (e :: others.1, others.2)

instance : Keypad Keyboard where
  look k now :=
    let arrived := seen k.waiting
    let looked := k.latch.look arrived.1 now
    (looked.1, { k with latch := looked.2, waiting := arrived.2 })

end Keyboard

end ChipEight
