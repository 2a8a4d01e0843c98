import ChipEight.Keypad.Keypress
import ChipEight.Text.Decimal
import ChipEight.Text.Utf8

/-!
# What is typed

A terminal in raw mode sends a key as the bytes of one character, or as a sequence that starts with the escape byte. Movements of
the mouse and answers about the cursor are sequences too. `Typed.recognise` says of the bytes that came so far whether they are
whole and what they mean; `Typed.read` cuts any bytes into what they are made of and keeps the start of what is not yet whole.

The keys of the keypad are single characters. All else that is sent as a sequence is recognised only to be skipped whole.
-/

namespace ChipEight

/-- What a terminal sends. -/
inductive Arrival where
  /-- A key that was sent as a character. -/
  | key (e : KeyEvent)
  /-- An answer about where the cursor is. -/
  | cursorReport
  /-- Anything else: other keys, the mouse, and bytes that mean nothing. -/
  | other
  deriving DecidableEq, Repr

/-- What is known of the bytes that came so far. -/
inductive Recognition where
  | whole (a : Arrival)
  /-- More bytes are needed. -/
  | begun
  deriving DecidableEq, Repr

namespace Typed

/-- The byte that sequences start with. -/
def escape : UInt8 := 0x1b

/-- The key of a character. Control characters stand for Ctrl with a letter or a digit. -/
def keyOfChar (c : Char) : KeyEvent :=
  if c = '\r' then { code := .enter }
  else if c = '\t' then { code := .tab }
  else if c = '\x7f' then { code := .backspace }
  else if c = '\x00' then { code := .char ' ', control := true }
  else if c.toNat ≤ 0x1a then { code := .char (Char.ofNat (c.toNat - 1 + 'a'.toNat)), control := true }
  else if 0x1c ≤ c.toNat ∧ c.toNat ≤ 0x1f then { code := .char (Char.ofNat (c.toNat - 0x1c + '4'.toNat)), control := true }
  else { code := .char c, shift := c.isUpper }

/-- Recognises a key that is sent as a character. -/
def recogniseChar (bytes : List UInt8) (alt : Bool) : Recognition :=
  match (Text.ofUtf8? bytes).map String.toList with
  | some (c :: _) => .whole (.key { keyOfChar c with alt := alt })
  | _ => if Text.isUtf8Start bytes then .begun else .whole .other

/-- Whether a byte is one of a character's. -/
def isChar (c : Char) (byte : UInt8) : Bool := byte.toNat == c.toNat

/-- Whether a byte is a decimal digit. -/
def isDigit (byte : UInt8) : Bool := 0x30 ≤ byte && byte ≤ 0x39

/-- Whether the numbers of a sequence are a row and a column, and perhaps more. -/
def isPosition (numbers : List UInt8) : Bool :=
  match (Text.ofUtf8? numbers).map (String.splitOn · ";") with
  | some (row :: column :: _) => (Text.natBelow? 0x10000 row).isSome && (Text.natBelow? 0x10000 column).isSome
  | _ => false

/-- Recognises a sequence of numbers. It ends with a letter or a mark that says what it is. -/
def recogniseNumbers (first : UInt8) (rest : List UInt8) : Recognition :=
  match rest.getLast? with
  | none => .begun
  | some final =>
    if 64 ≤ final && final ≤ 126 then
      .whole (if isChar 'R' final && isPosition (first :: rest.dropLast) then .cursorReport else .other)
    else .begun

/-- Recognises what follows an escape byte and a bracket. A second bracket has one byte behind it and a short mouse report three; a
long mouse report goes on to the next `m` or `M`. -/
def recogniseBracket : List UInt8 → Recognition
  | [] => .begun
  | first :: rest =>
    if isChar '[' first then (if rest.isEmpty then .begun else .whole .other)
    else if isChar 'M' first then (if rest.length < 3 then .begun else .whole .other)
    else if isChar '<' first then
      (if rest.getLast?.any fun final => isChar 'm' final || isChar 'M' final then .whole .other else .begun)
    else if isDigit first then recogniseNumbers first rest
    else .whole .other

/-- What is known of some bytes. `more` says whether others are already waiting behind them: an escape byte alone is the Esc key
only if none are. Before another escape byte it is the Esc key, too, and before a character it stands for Alt. -/
def recognise (more : Bool) : List UInt8 → Recognition
  | [] => .begun
  | first :: rest =>
    if first ≠ escape then recogniseChar (first :: rest) false
    else
      match rest with
      | [] => if more then .begun else .whole (.key { code := .escape })
      | second :: rest =>
        if second = escape then .whole (.key { code := .escape })
        else if isChar 'O' second then (if rest.isEmpty then .begun else .whole .other)
        else if isChar '[' second then recogniseBracket rest
        else recogniseChar (second :: rest) true

/-- What some bytes are made of, and the start of what is not yet whole. `begun` is such a start from before. -/
def read (begun : List UInt8) : List UInt8 → List Arrival × List UInt8
  | [] => ([], begun)
  | byte :: rest =>
    match recognise (!rest.isEmpty) (begun ++ [byte]) with
    | .begun => read (begun ++ [byte]) rest
    | .whole a =>
      let others := read [] rest
      (a :: others.1, others.2)

end Typed

end ChipEight
