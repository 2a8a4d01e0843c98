/-!
# Keys

The sixteen keys of the hexadecimal keypad lie over the left side of a keyboard:

    1 2 3 C      1 2 3 4
    4 5 6 D  on  q w e r
    7 8 9 E      a s d f
    A 0 B F      z x c v

Esc and Ctrl-C are no keys of the pad. They ask for the session to end.
-/

namespace ChipEight

/-- What can be latched. -/
inductive Keypress where
  | key (number : UInt8)
  /-- The wish to end the session. -/
  | cancel
  deriving DecidableEq, Repr

/-- Which key of a keyboard was hit. The keys that are left out (the other arrows, Home, the media keys and so on) mean as little as
`enter`: only characters and `escape` mean something. -/
inductive KeyCode where
  | char (c : Char)
  | function (n : Nat)
  | escape
  | enter
  | tab
  | backspace
  | left
  | up
  | delete
  | null
  deriving DecidableEq, Repr

/-- A key of the keyboard and what was held down with it. -/
structure KeyEvent where
  code : KeyCode
  control : Bool := false
  shift : Bool := false
  alt : Bool := false
  deriving DecidableEq, Repr

/-- The characters of the keypad and their numbers. -/
def keypadLayout : List (Char × UInt8) := [
  ('x', 0x0), ('1', 0x1), ('2', 0x2), ('3', 0x3), ('q', 0x4), ('w', 0x5), ('e', 0x6), ('a', 0x7),
  ('s', 0x8), ('d', 0x9), ('z', 0xa), ('c', 0xb), ('4', 0xc), ('r', 0xd), ('f', 0xe), ('v', 0xf)]

namespace KeyEvent

/-- What a key event means. The case of a character does not matter, and of what is held down only Ctrl with C does. -/
def keypress? (e : KeyEvent) : Option Keypress :=
  match e.code with
  | .escape => some .cancel
  | .char c =>
    if e.control && c.toLower == 'c' then some .cancel else (keypadLayout.lookup c.toLower).map .key
  | _ => none

end KeyEvent

end ChipEight
