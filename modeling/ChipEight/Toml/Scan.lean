/-!
# Reading characters

A scan reads from the front of a list of characters and gives the rest, or fails. A failed scan leaves no trace, so alternatives
start from the same place.
-/

namespace ChipEight.Toml

/-- Reads from the front of the characters. -/
abbrev Scan := StateT (List Char) Option

namespace Scan

/-- The next character, left in place. -/
def peek : Scan (Option Char) := fun cs => some (cs.head?, cs)

/-- A character with a property. -/
def satisfy (p : Char → Bool) : Scan Char
  | [] => none
  | c :: rest => if p c then some (c, rest) else none

/-- A given character. -/
def char (c : Char) : Scan Unit := do
  let _ ← satisfy (· == c)

/-- Given characters, one after the other. -/
def chars : List Char → Scan Unit
  | [] => pure ()
  | c :: rest => do
    char c
    chars rest

/-- Given text. -/
def text (s : String) : Scan Unit := chars s.toList

/-- All characters up to the first without a property. -/
def takeWhile (p : Char → Bool) : Scan (List Char) := fun cs => some (cs.span p)

/-- As `takeWhile`, but at least one. -/
def takeSome (p : Char → Bool) : Scan (List Char) := do
  let first ← satisfy p
  let others ← takeWhile p
  return first :: others

/-- Exactly `n` characters with a property. -/
def takeExactly (p : Char → Bool) : Nat → Scan (List Char)
  | 0 => return []
  | n + 1 => do
    let first ← satisfy p
    let others ← takeExactly p n
    return first :: others

/-- What a scan reads, or nothing if it fails. -/
def maybe {α : Type} (scan : Scan α) : Scan (Option α) := (some <$> scan) <|> pure none

/-- Whether a scan succeeds, which it then does. -/
def succeeds {α : Type} (scan : Scan α) : Scan Bool := Option.isSome <$> maybe scan

/-- What a scan reads when it is repeated until it fails, at most `n` times. -/
def repeatUpTo {α : Type} (scan : Scan α) : Nat → Scan (List α)
  | 0 => return []
  | n + 1 => do
    match ← maybe scan with
    | none => return []
    | some first =>
      let others ← repeatUpTo scan n
      return first :: others

/-- What a scan reads when it is repeated until it fails. A scan that reads something each time cannot be repeated more often than
there are characters. -/
def many {α : Type} (scan : Scan α) : Scan (List α) := fun cs => repeatUpTo scan cs.length cs

/-- Items with a separator between them, perhaps none. A separator that no item follows is left in place. -/
def separated {α : Type} (item : Scan α) (separator : Char) : Scan (List α) := do
  match ← maybe item with
  | none => return []
  | some first =>
    let others ← many (char separator *> item)
    return first :: others

/-- Succeeds at the end of the characters. -/
def atEnd : Scan Unit := fun cs => if cs.isEmpty then some ((), cs) else none

/-- The end of a line: a line feed, alone or after a carriage return. -/
def newline : Scan Unit := char '\n' <|> text "\r\n"

/-- Spaces and tabs. -/
def blanks : Scan Unit := do
  let _ ← takeWhile fun c => c == ' ' || c == '\t'

/-- Whether a character may stand in a comment or, but for the quotes, in a string: a tab or no control character. -/
def isPlain (c : Char) : Bool := c == '\t' || (' ' ≤ c && c != '\x7f')

/-- A comment, up to the end of its line. -/
def comment : Scan Unit := do
  char '#'
  let _ ← takeWhile isPlain

/-- The end of a line or of the document. -/
def lineEnd : Scan Unit := newline <|> atEnd

/-- What may stand behind an entry or a header: blanks, a comment, and the end of the line. -/
def trailing : Scan Unit := do
  blanks
  let _ ← maybe comment
  lineEnd

/-- Blanks, ends of lines, and comments with the ends of their lines, as many as there are. -/
def gap : Scan Unit := do
  blanks
  let _ ← many ((newline <|> (comment *> newline)) *> blanks)

end Scan

end ChipEight.Toml
